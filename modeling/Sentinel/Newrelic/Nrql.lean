import Sentinel.Python.JsonProofs
import Sentinel.Python.Replace
import Sentinel.Text.Quoting

/-! The queries of the live store. Whatever a service name, a trace id or a searched
text holds, it stays within the one literal that the query puts it in. -/
namespace Sentinel.Newrelic
open Python Quoting

def spanColumns : String :=
  "timestamp, trace.id, id, parent.id, duration.ms, name, " ++
    "service.name, span.kind, otel.status_code, rpc.method, rpc.service"
def logColumns : String := "timestamp, message, severity.text, level, service.name, trace.id"
def changeColumns : String := "timestamp, changeId, service, kind, summary, diffTouches"

/-- `_q`. -/
def q (value : String) : String :=
  String.ofList (replaceAll "'".toList "\\'".toList (replaceAll "\\".toList "\\\\".toList value.toList))

/-- `str(n)`. -/
def digits (n : ℤ) : String := String.ofList (intRepr n)

/-- The range of time that ends a query. -/
def since (startMs endMs : ℤ) : String := " SINCE " ++ digits startMs ++ " UNTIL " ++ digits endMs

def spansPage (startMs endMs : ℤ) : String :=
  "SELECT " ++ spanColumns ++ " FROM Span" ++ since startMs endMs ++ " LIMIT MAX"

def traceSpans (traceId : String) (startMs endMs : ℤ) : String :=
  "SELECT " ++ spanColumns ++ " FROM Span WHERE trace.id = '" ++ q traceId ++ "'" ++
    since startMs endMs ++ " LIMIT MAX"

/-- The series that the metric queries ask for. -/
def timeseries (bucketS startMs endMs : ℤ) : String :=
  " TIMESERIES " ++ digits bucketS ++ " seconds" ++ since startMs endMs

def metricLatencyP95 (service : String) (startMs endMs bucketS : ℤ) : String :=
  "SELECT percentile(duration.ms, 95) AS 'p95' FROM Span WHERE service.name = '" ++ q service ++ "'" ++
    timeseries bucketS startMs endMs

def metricErrorRate (service : String) (startMs endMs bucketS : ℤ) : String :=
  "SELECT filter(count(*), WHERE otel.status_code = 'ERROR') / count(*) AS 'error_rate' " ++
    "FROM Span WHERE service.name = '" ++ q service ++ "'" ++ timeseries bucketS startMs endMs

def metricMemoryMb (service : String) (startMs endMs bucketS : ℤ) : String :=
  "SELECT max(container.memory.usage.total) / 1e6 AS 'memory_mb' FROM Metric " ++
    "WHERE container.name = '" ++ q service ++ "'" ++ timeseries bucketS startMs endMs

def metricCpuUtilization (service : String) (startMs endMs bucketS : ℤ) : String :=
  "SELECT average(container.cpu.utilization) AS 'cpu_utilization' FROM Metric " ++
    "WHERE container.name = '" ++ q service ++ "'" ++ timeseries bucketS startMs endMs

def logsSearch (startMs endMs : ℤ) (service contains : Option String) : String :=
  let conditions :=
    (service.map fun service => "service.name = '" ++ q service ++ "'").toList ++
      (contains.map fun contains => "message LIKE '%" ++ q contains ++ "%'").toList
  let selected := if conditions = [] then "" else " WHERE " ++ " AND ".intercalate conditions
  "SELECT " ++ logColumns ++ " FROM Log" ++ selected ++ since startMs endMs ++ " LIMIT MAX"

def logsForTrace (traceId : String) (startMs endMs : ℤ) : String :=
  "SELECT " ++ logColumns ++ " FROM Log WHERE trace.id = '" ++ q traceId ++ "'" ++
    since startMs endMs ++ " LIMIT MAX"

def listServices (startMs endMs : ℤ) : String :=
  "SELECT uniques(service.name, 1000) FROM Span" ++ since startMs endMs

def listMetricContainers (startMs endMs : ℤ) : String :=
  "SELECT uniques(container.name, 1000) FROM Metric" ++ since startMs endMs

def changes (startMs endMs : ℤ) : String :=
  "SELECT " ++ changeColumns ++ " FROM SentinelChange" ++ since startMs endMs ++ " LIMIT MAX"

/-- How NRQL reads a query: a literal ends at the first quote that is not preceded by an
odd number of backslashes. -/
def readNrql (query : String) : Option (List (Segment Char)) :=
  segments '\\' '\x27' .outside query.toList

/-- What a literal with the body stands for. -/
def decoded (body : String) : String := String.ofList (decode '\\' '\x27' body.toList)

/-- A stretch of a query, and the literal that holds `q value`. -/
def plain (text : String) : Segment Char := .plain text.toList
def quoted (body : String) : Segment Char := .literal body.toList

theorem q_toList (value : String) : (q value).toList = Quoting.escape '\\' '\x27' value.toList := by
  have one : (replaceAll "'".toList "\\'".toList (replaceAll "\\".toList "\\\\".toList value.toList)) =
      Quoting.escape '\\' '\x27' value.toList := by
    change replaceAll ['\x27'] _ (replaceAll ['\\'] _ _) = _
    rw [replaceAll_char, replaceAll_char, List.flatMap_assoc, Quoting.escape]
    refine List.flatMap_congr fun c _ => ?_
    by_cases slash : c = '\\'
    · subst slash
      decide
    · by_cases quote : c = '\x27' <;> simp [slash, quote]
  rw [q, String.toList_ofList, one]

theorem decoded_q (value : String) : decoded (q value) = value := by
  rw [decoded, q_toList, decode_escape, String.ofList_toList]

theorem q_plain {value : String}
    (clear : (value.toList.all fun c => c != '\\' && c != '\x27') = true) : q value = value := by
  apply String.toList_injective
  rw [q_toList]
  refine escape_plain fun c member => ?_
  simpa using List.all_eq_true.mp clear c member

/-- The signs of a pattern stand around the value as they are. -/
theorem q_pattern (value : String) : "%" ++ q value ++ "%" = q ("%" ++ value ++ "%") := by
  apply String.toList_injective
  simp only [String.toList_append, q_toList, Quoting.escape_append]
  rfl

/-- What a text written out does not hold is seen from its characters. -/
theorem ofList_clear {c : Char} {chars : List Char} (clear : (chars.all fun d => d != c) = true) :
    c ∉ (String.ofList chars).toList := by
  rw [String.toList_ofList]
  intro member
  simpa using List.all_eq_true.mp clear c member

theorem append_clear {c : Char} {first later : String} (clear : c ∉ first.toList)
    (clearLater : c ∉ later.toList) : c ∉ (first ++ later).toList := by
  rw [String.toList_append, List.mem_append, not_or]
  exact ⟨clear, clearLater⟩

theorem digits_clear (n : ℤ) : '\x27' ∉ (digits n).toList := by
  rw [digits, String.toList_ofList]
  intro member
  exact absurd (intRepr_token n _ member) (by decide)

theorem since_clear (startMs endMs : ℤ) : '\x27' ∉ (since startMs endMs).toList := by
  apply append_clear _ (digits_clear endMs)
  apply append_clear _ (ofList_clear rfl)
  exact append_clear (ofList_clear rfl) (digits_clear startMs)

theorem timeseries_clear (bucketS startMs endMs : ℤ) :
    '\x27' ∉ (timeseries bucketS startMs endMs).toList := by
  apply append_clear _ (since_clear startMs endMs)
  apply append_clear _ (ofList_clear rfl)
  exact append_clear (ofList_clear rfl) (digits_clear bucketS)

theorem readNrql_plain {text : String} (clear : '\x27' ∉ text.toList) :
    readNrql text = some [plain text] :=
  segments_plain clear

/-- A query with an escaped value between quotes. -/
theorem readNrql_literal {text : String} (clear : '\x27' ∉ text.toList) (value after : String) :
    readNrql (text ++ "'" ++ q value ++ "'" ++ after) =
      (readNrql after).map fun later => plain text :: quoted (q value) :: later := by
  have parts : (text ++ "'" ++ q value ++ "'" ++ after).toList =
      text.toList ++ '\x27' :: (Quoting.escape '\\' '\x27' value.toList ++ '\x27' :: after.toList) := by
    simp [q_toList]
  rw [readNrql, parts, segments_literal (by decide) clear]
  simp only [quoted, q_toList]
  rfl

/-- A query with one literal. -/
theorem readNrql_one {text after : String} (clear : '\x27' ∉ text.toList)
    (clearAfter : '\x27' ∉ after.toList) (value : String) :
    readNrql (text ++ "'" ++ q value ++ "'" ++ after) =
      some [plain text, quoted (q value), plain after] := by
  rw [readNrql_literal clear, readNrql_plain clearAfter]
  rfl

/-- A query with two literals. -/
theorem readNrql_two {text between after : String} (clear : '\x27' ∉ text.toList)
    (clearBetween : '\x27' ∉ between.toList) (clearAfter : '\x27' ∉ after.toList)
    (first second : String) :
    readNrql (text ++ "'" ++ q first ++ "'" ++ (between ++ "'" ++ q second ++ "'" ++ after)) =
      some [plain text, quoted (q first), plain between, quoted (q second), plain after] := by
  rw [readNrql_literal clear, readNrql_one clearBetween clearAfter]
  rfl

section
variable (startMs endMs bucketS : ℤ)

theorem columns_clear :
    '\x27' ∉ spanColumns.toList ∧ '\x27' ∉ logColumns.toList ∧ '\x27' ∉ changeColumns.toList := by
  refine ⟨?_, ofList_clear rfl, ofList_clear rfl⟩
  exact append_clear (ofList_clear rfl) (ofList_clear rfl)

/-- The texts around the columns of a query. -/
theorem selected_clear {columns : String} (clear : '\x27' ∉ columns.toList) {table : String}
    (clearTable : '\x27' ∉ table.toList) : '\x27' ∉ ("SELECT " ++ columns ++ table).toList :=
  append_clear (append_clear (ofList_clear rfl) clear) clearTable

theorem limit_clear : '\x27' ∉ (since startMs endMs ++ " LIMIT MAX").toList :=
  append_clear (since_clear startMs endMs) (ofList_clear rfl)

/-- A query by trace id selects its columns and puts the id into the one literal. -/
theorem read_byTrace {columns opening table : String} (traceId : String)
    (clear : '\x27' ∉ columns.toList) (opens : opening = table ++ "'")
    (clearTable : '\x27' ∉ table.toList) :
    readNrql ("SELECT " ++ columns ++ opening ++ q traceId ++ "'" ++ since startMs endMs ++
        " LIMIT MAX") =
      some [plain ("SELECT " ++ columns ++ table), quoted (q traceId),
        plain (since startMs endMs ++ " LIMIT MAX")] := by
  have whole := readNrql_one (selected_clear clear clearTable) (limit_clear startMs endMs) traceId
  rw [opens, ← whole]
  simp only [String.append_assoc]

theorem read_traceSpans (traceId : String) :
    readNrql (traceSpans traceId startMs endMs) =
      some [plain ("SELECT " ++ spanColumns ++ " FROM Span WHERE trace.id = "), quoted (q traceId),
        plain (since startMs endMs ++ " LIMIT MAX")] :=
  read_byTrace _ _ traceId columns_clear.1 (by decide) (ofList_clear rfl)

theorem read_logsForTrace (traceId : String) :
    readNrql (logsForTrace traceId startMs endMs) =
      some [plain ("SELECT " ++ logColumns ++ " FROM Log WHERE trace.id = "), quoted (q traceId),
        plain (since startMs endMs ++ " LIMIT MAX")] :=
  read_byTrace _ _ traceId columns_clear.2.1 (by decide) (ofList_clear rfl)

/-- A metric query names its column in a literal of its own, before that of the service. -/
theorem read_metric {query text name between : String} (service : String)
    (clear : '\x27' ∉ text.toList) (own : q name = name) (clearBetween : '\x27' ∉ between.toList)
    (parts : query = text ++ "'" ++ name ++ "'" ++ between ++ "'" ++ q service ++ "'" ++
      timeseries bucketS startMs endMs) :
    readNrql query =
      some [plain text, quoted name, plain between, quoted (q service),
        plain (timeseries bucketS startMs endMs)] := by
  have whole := readNrql_two clear clearBetween (timeseries_clear bucketS startMs endMs) name service
  rw [own] at whole
  rw [parts, ← whole]
  simp only [String.append_assoc]

/-- A text written out, with the literal in it apart. -/
theorem ofList_literal {whole text name between : List Char}
    (parts : whole = text ++ '\x27' :: (name ++ '\x27' :: (between ++ ['\x27']))) :
    String.ofList whole = String.ofList text ++ "'" ++ String.ofList name ++ "'" ++
      String.ofList between ++ "'" := by
  apply String.toList_injective
  simp [parts]

theorem read_metricLatencyP95 (service : String) :
    readNrql (metricLatencyP95 service startMs endMs bucketS) =
      some [plain "SELECT percentile(duration.ms, 95) AS ", quoted "p95",
        plain " FROM Span WHERE service.name = ", quoted (q service),
        plain (timeseries bucketS startMs endMs)] := by
  have own : q "p95" = "p95" := q_plain (by decide)
  refine read_metric _ _ _ service (ofList_clear rfl) own (ofList_clear rfl) ?_
  exact congrArg (· ++ q service ++ "'" ++ timeseries bucketS startMs endMs) (ofList_literal rfl)

theorem read_metricErrorRate (service : String) :
    readNrql (metricErrorRate service startMs endMs bucketS) =
      some [plain "SELECT filter(count(*), WHERE otel.status_code = ", quoted "ERROR",
        plain ") / count(*) AS ", quoted "error_rate", plain " FROM Span WHERE service.name = ",
        quoted (q service), plain (timeseries bucketS startMs endMs)] := by
  have error : q "ERROR" = "ERROR" := q_plain (by decide)
  have own : q "error_rate" = "error_rate" := q_plain (by decide)
  have rate : readNrql (") / count(*) AS " ++ "'" ++ "error_rate" ++ "'" ++
      " FROM Span WHERE service.name = " ++ "'" ++ q service ++ "'" ++
        timeseries bucketS startMs endMs) = _ :=
    read_metric _ _ _ service (ofList_clear rfl) own (ofList_clear rfl) rfl
  have parts : metricErrorRate service startMs endMs bucketS =
      "SELECT filter(count(*), WHERE otel.status_code = " ++ "'" ++ q "ERROR" ++ "'" ++
        (") / count(*) AS " ++ "'" ++ "error_rate" ++ "'" ++ " FROM Span WHERE service.name = " ++
          "'" ++ q service ++ "'" ++ timeseries bucketS startMs endMs) := by
    rw [error]
    simp only [← String.append_assoc]
    exact congrArg (· ++ q service ++ "'" ++ timeseries bucketS startMs endMs) (by decide)
  rw [parts, readNrql_literal (ofList_clear rfl), rate, error]
  rfl

theorem read_metricMemoryMb (service : String) :
    readNrql (metricMemoryMb service startMs endMs bucketS) =
      some [plain "SELECT max(container.memory.usage.total) / 1e6 AS ", quoted "memory_mb",
        plain " FROM Metric WHERE container.name = ", quoted (q service),
        plain (timeseries bucketS startMs endMs)] := by
  have own : q "memory_mb" = "memory_mb" := q_plain (by decide)
  refine read_metric _ _ _ service (ofList_clear rfl) own (ofList_clear rfl) ?_
  apply congrArg (· ++ q service ++ "'" ++ timeseries bucketS startMs endMs)
  exact String.ofList_append.symm.trans (ofList_literal rfl)

theorem read_metricCpuUtilization (service : String) :
    readNrql (metricCpuUtilization service startMs endMs bucketS) =
      some [plain "SELECT average(container.cpu.utilization) AS ", quoted "cpu_utilization",
        plain " FROM Metric WHERE container.name = ", quoted (q service),
        plain (timeseries bucketS startMs endMs)] := by
  have own : q "cpu_utilization" = "cpu_utilization" := q_plain (by decide)
  refine read_metric _ _ _ service (ofList_clear rfl) own (ofList_clear rfl) ?_
  apply congrArg (· ++ q service ++ "'" ++ timeseries bucketS startMs endMs)
  exact String.ofList_append.symm.trans (ofList_literal rfl)

/-- The text before the conditions of a log search. -/
def logsFrom : String := "SELECT " ++ logColumns ++ " FROM Log"

theorem logsFrom_clear {more : String} (clear : '\x27' ∉ more.toList) :
    '\x27' ∉ (logsFrom ++ more).toList :=
  append_clear (selected_clear columns_clear.2.1 (ofList_clear rfl)) clear

theorem read_logsSearch :
    readNrql (logsSearch startMs endMs none none) =
      some [plain (logsFrom ++ (since startMs endMs ++ " LIMIT MAX"))] := by
  have parts : logsSearch startMs endMs none none =
      logsFrom ++ (since startMs endMs ++ " LIMIT MAX") := by
    change logsFrom ++ "" ++ since startMs endMs ++ " LIMIT MAX" = _
    rw [String.append_empty, String.append_assoc]
  rw [parts, readNrql_plain (logsFrom_clear (limit_clear _ _))]

theorem where_clear : '\x27' ∉ (" WHERE " ++ "service.name = ").toList ∧
    '\x27' ∉ (" WHERE " ++ "message LIKE ").toList :=
  ⟨append_clear (ofList_clear rfl) (ofList_clear rfl),
    append_clear (ofList_clear rfl) (ofList_clear rfl)⟩

theorem and_clear : '\x27' ∉ (" AND " ++ "message LIKE ").toList :=
  append_clear (ofList_clear rfl) (ofList_clear rfl)

/-- The two conditions of a log search, with their literals apart. -/
theorem service_condition (service : String) :
    "service.name = '" ++ q service ++ "'" = "service.name = " ++ ("'" ++ (q service ++ "'")) := by
  rw [show "service.name = '" = "service.name = " ++ "'" by decide]
  simp only [String.append_assoc]

theorem contains_condition (contains : String) :
    "message LIKE '%" ++ q contains ++ "%'" =
      "message LIKE " ++ ("'" ++ (q ("%" ++ contains ++ "%") ++ "'")) := by
  rw [← q_pattern, show "message LIKE '%" = "message LIKE " ++ "'" ++ "%" by decide,
    show "%'" = "%" ++ "'" by decide]
  simp only [String.append_assoc]

theorem read_logsSearch_service (service : String) :
    readNrql (logsSearch startMs endMs (some service) none) =
      some [plain (logsFrom ++ (" WHERE " ++ "service.name = ")), quoted (q service),
        plain (since startMs endMs ++ " LIMIT MAX")] := by
  have parts : logsSearch startMs endMs (some service) none =
      logsFrom ++ (" WHERE " ++ "service.name = ") ++ "'" ++ q service ++ "'" ++
        (since startMs endMs ++ " LIMIT MAX") := by
    change logsFrom ++ (" WHERE " ++ ("service.name = '" ++ q service ++ "'")) ++
      since startMs endMs ++ " LIMIT MAX" = _
    rw [service_condition]
    simp only [String.append_assoc]
  rw [parts, readNrql_one (logsFrom_clear where_clear.1) (limit_clear _ _)]

theorem read_logsSearch_contains (contains : String) :
    readNrql (logsSearch startMs endMs none (some contains)) =
      some [plain (logsFrom ++ (" WHERE " ++ "message LIKE ")), quoted ("%" ++ q contains ++ "%"),
        plain (since startMs endMs ++ " LIMIT MAX")] := by
  have parts : logsSearch startMs endMs none (some contains) =
      logsFrom ++ (" WHERE " ++ "message LIKE ") ++ "'" ++ q ("%" ++ contains ++ "%") ++ "'" ++
        (since startMs endMs ++ " LIMIT MAX") := by
    change logsFrom ++ (" WHERE " ++ ("message LIKE '%" ++ q contains ++ "%'")) ++
      since startMs endMs ++ " LIMIT MAX" = _
    rw [contains_condition]
    simp only [String.append_assoc]
  rw [parts, readNrql_one (logsFrom_clear where_clear.2) (limit_clear _ _), q_pattern]

theorem read_logsSearch_both (service contains : String) :
    readNrql (logsSearch startMs endMs (some service) (some contains)) =
      some [plain (logsFrom ++ (" WHERE " ++ "service.name = ")), quoted (q service),
        plain (" AND " ++ "message LIKE "), quoted ("%" ++ q contains ++ "%"),
        plain (since startMs endMs ++ " LIMIT MAX")] := by
  have parts : logsSearch startMs endMs (some service) (some contains) =
      logsFrom ++ (" WHERE " ++ "service.name = ") ++ "'" ++ q service ++ "'" ++
        (" AND " ++ "message LIKE " ++ "'" ++ q ("%" ++ contains ++ "%") ++ "'" ++
          (since startMs endMs ++ " LIMIT MAX")) := by
    change logsFrom ++ (" WHERE " ++ ("service.name = '" ++ q service ++ "'" ++ " AND " ++
      ("message LIKE '%" ++ q contains ++ "%'"))) ++ since startMs endMs ++ " LIMIT MAX" = _
    rw [service_condition, contains_condition]
    simp only [String.append_assoc]
  rw [parts, readNrql_two (logsFrom_clear where_clear.1) and_clear (limit_clear _ _), q_pattern]

/-- The queries that take no text. -/
theorem read_untexted :
    readNrql (spansPage startMs endMs) = some [plain (spansPage startMs endMs)] ∧
      readNrql (listServices startMs endMs) = some [plain (listServices startMs endMs)] ∧
      readNrql (listMetricContainers startMs endMs) = some [plain (listMetricContainers startMs endMs)] ∧
      readNrql (changes startMs endMs) = some [plain (changes startMs endMs)] := by
  have ranged := since_clear startMs endMs
  refine ⟨readNrql_plain ?_, readNrql_plain ?_, readNrql_plain ?_, readNrql_plain ?_⟩
  · apply append_clear _ (ofList_clear rfl)
    exact append_clear (selected_clear columns_clear.1 (ofList_clear rfl)) ranged
  · exact append_clear (ofList_clear rfl) ranged
  · exact append_clear (ofList_clear rfl) ranged
  · apply append_clear _ (ofList_clear rfl)
    exact append_clear (selected_clear columns_clear.2.2 (ofList_clear rfl)) ranged

end

/-- In each query, each value stands in one literal, which ends where the query closes it
and decodes to the value. -/
theorem nrql_contained (startMs endMs bucketS : ℤ) :
    (∀ value, decoded (q value) = value) ∧
      (∀ value, decoded ("%" ++ q value ++ "%") = "%" ++ value ++ "%") ∧
      (∀ traceId, readNrql (traceSpans traceId startMs endMs) =
        some [plain ("SELECT " ++ spanColumns ++ " FROM Span WHERE trace.id = "), quoted (q traceId),
          plain (since startMs endMs ++ " LIMIT MAX")]) ∧
      (∀ traceId, readNrql (logsForTrace traceId startMs endMs) =
        some [plain ("SELECT " ++ logColumns ++ " FROM Log WHERE trace.id = "), quoted (q traceId),
          plain (since startMs endMs ++ " LIMIT MAX")]) ∧
      (∀ service, readNrql (metricLatencyP95 service startMs endMs bucketS) =
        some [plain "SELECT percentile(duration.ms, 95) AS ", quoted "p95",
          plain " FROM Span WHERE service.name = ", quoted (q service),
          plain (timeseries bucketS startMs endMs)]) ∧
      (∀ service, readNrql (metricErrorRate service startMs endMs bucketS) =
        some [plain "SELECT filter(count(*), WHERE otel.status_code = ", quoted "ERROR",
          plain ") / count(*) AS ", quoted "error_rate", plain " FROM Span WHERE service.name = ",
          quoted (q service), plain (timeseries bucketS startMs endMs)]) ∧
      (∀ service, readNrql (metricMemoryMb service startMs endMs bucketS) =
        some [plain "SELECT max(container.memory.usage.total) / 1e6 AS ", quoted "memory_mb",
          plain " FROM Metric WHERE container.name = ", quoted (q service),
          plain (timeseries bucketS startMs endMs)]) ∧
      (∀ service, readNrql (metricCpuUtilization service startMs endMs bucketS) =
        some [plain "SELECT average(container.cpu.utilization) AS ", quoted "cpu_utilization",
          plain " FROM Metric WHERE container.name = ", quoted (q service),
          plain (timeseries bucketS startMs endMs)]) ∧
      (∀ service, readNrql (logsSearch startMs endMs (some service) none) =
        some [plain (logsFrom ++ (" WHERE " ++ "service.name = ")), quoted (q service),
          plain (since startMs endMs ++ " LIMIT MAX")]) ∧
      (∀ contains, readNrql (logsSearch startMs endMs none (some contains)) =
        some [plain (logsFrom ++ (" WHERE " ++ "message LIKE ")), quoted ("%" ++ q contains ++ "%"),
          plain (since startMs endMs ++ " LIMIT MAX")]) ∧
      (∀ service contains, readNrql (logsSearch startMs endMs (some service) (some contains)) =
        some [plain (logsFrom ++ (" WHERE " ++ "service.name = ")), quoted (q service),
          plain (" AND " ++ "message LIKE "), quoted ("%" ++ q contains ++ "%"),
          plain (since startMs endMs ++ " LIMIT MAX")]) ∧
      readNrql (logsSearch startMs endMs none none) =
        some [plain (logsFrom ++ (since startMs endMs ++ " LIMIT MAX"))] ∧
      readNrql (spansPage startMs endMs) = some [plain (spansPage startMs endMs)] ∧
      readNrql (listServices startMs endMs) = some [plain (listServices startMs endMs)] ∧
      readNrql (listMetricContainers startMs endMs) = some [plain (listMetricContainers startMs endMs)] ∧
      readNrql (changes startMs endMs) = some [plain (changes startMs endMs)] :=
  ⟨decoded_q, fun value => by rw [q_pattern, decoded_q], read_traceSpans _ _, read_logsForTrace _ _,
    read_metricLatencyP95 _ _ _, read_metricErrorRate _ _ _, read_metricMemoryMb _ _ _,
    read_metricCpuUtilization _ _ _, read_logsSearch_service _ _, read_logsSearch_contains _ _,
    read_logsSearch_both _ _, read_logsSearch _ _, read_untexted _ _⟩

end Sentinel.Newrelic
