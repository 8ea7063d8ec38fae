import Sentinel.Lgtm.LogSearch

/-! The differences are real: a Loki that knows only plain queries fails the others, and
the fixture may list a row first or last among the rows of its time and service. -/
namespace Sentinel.Lgtm
open Python Fixtures Tools Newrelic

/-- Quoted texts are read up to the first quote. -/
theorem quote_split {s s' rest rest' : List Char} (clean : '"' ∉ s')
    (same : s ++ '"' :: rest = s' ++ '"' :: rest') :
    s = s' ∧ rest = rest' ∨ ∃ more, rest' = more ++ '"' :: rest := by
  rcases List.append_eq_append_iff.mp same with ⟨more, rfl, tail⟩ | ⟨more, rfl, tail⟩
  · cases more with
    | nil => exact .inl ⟨by simp, by simpa using tail⟩
    | cons c more =>
      obtain ⟨rfl, -⟩ := List.cons.inj tail
      simp at clean
  · cases more with
    | nil => exact .inl ⟨by simp, by simpa using tail.symm⟩
    | cons c more =>
      obtain ⟨rfl, later⟩ := List.cons.inj tail
      exact .inr ⟨more, later⟩

def containsPart : Option String → List Char
  | some text => [' ', '|', '=', ' ', '"'] ++ (text.toList ++ ['"'])
  | none => []

theorem containsPart_injective : Function.Injective containsPart := by
  rintro (_ | a) (_ | b) same
  · rfl
  · cases same
  · cases same
  · simpa [containsPart, String.toList_inj] using same

/-- A text with a quote in it does not read as a plain one. -/
theorem service_inj {s s' : List Char} {contains contains' : Option String} (clean : '"' ∉ s')
    (plain : ∀ text ∈ contains', Plain text)
    (same : s ++ '"' :: '\x7d' :: containsPart contains = s' ++ '"' :: '\x7d' :: containsPart contains') :
    s = s' ∧ contains = contains' := by
  rcases quote_split clean same with ⟨rfl, tail⟩ | ⟨more, tail⟩
  · exact ⟨rfl, containsPart_injective (List.cons.inj tail).2⟩
  · exfalso
    cases contains' with
    | none =>
      have := congrArg List.length tail
      simp only [containsPart, List.length_cons, List.length_append, List.length_nil] at this
      omega
    | some text' =>
      have unquoted : '"' ∉ text'.toList := plain text' rfl '"' (by simp)
      have opening : '"' ∉ ['\x7d', ' ', '|', '=', ' '] := by decide
      rcases quote_split opening tail.symm with ⟨-, closed⟩ | ⟨more', later⟩
      · cases contains with
        | none =>
          have ends := congrArg List.getLast? closed
          simp [containsPart] at ends
        | some text =>
          have inner : ['\x7d', ' ', '|', '=', ' '] ++ '"' :: (text.toList ++ ['"']) =
              text'.toList ++ '"' :: [] := closed
          rcases quote_split unquoted inner with ⟨-, ended⟩ | ⟨_, ended⟩ <;> simp at ended
      · rcases quote_split unquoted later.symm with ⟨-, ended⟩ | ⟨_, ended⟩ <;> simp at ended

def servicePart : Option String → List Char
  | some service => '"' :: (service.toList ++ ['"', '\x7d'])
  | none => ['~', '"', '.', '+', '"', '\x7d']

theorem streamSelector_toList (service : Option String) :
    (streamSelector service).toList = "\x7bservice_name=".toList ++ servicePart service := by
  cases service with
  | none => rfl
  | some service =>
    have text : streamSelector (some service) = "\x7bservice_name=\"" ++ service ++ "\"\x7d" := rfl
    rw [text]
    simp [servicePart]

theorem lineFilter_toList (contains : Option String) :
    (lineFilter contains).toList = containsPart contains := by
  cases contains <;> simp [lineFilter, containsPart]

/-- Only a plain query has the text of a plain query. -/
theorem logQuery_inj {service contains service' contains' : Option String}
    (plain : PlainQuery service' contains')
    (same : logQuery service contains = logQuery service' contains') :
    service = service' ∧ contains = contains' := by
  have chars := congrArg String.toList same
  rw [logQuery, logQuery, String.toList_append, String.toList_append, streamSelector_toList,
    streamSelector_toList, lineFilter_toList, lineFilter_toList, List.append_assoc, List.append_assoc,
    List.append_cancel_left_eq] at chars
  simp only [servicePart] at chars
  cases service with
  | none =>
    cases service' with
    | none => exact ⟨rfl, containsPart_injective (List.append_cancel_left chars)⟩
    | some _ => cases chars
  | some s =>
    cases service' with
    | none => cases chars
    | some s' =>
      have tails : s.toList ++ '"' :: '\x7d' :: containsPart contains =
          s'.toList ++ '"' :: '\x7d' :: containsPart contains' := by
        simpa using chars
      obtain ⟨texts, parts⟩ := service_inj (plain.1 s' rfl '"' (by simp)) plain.2 tails
      exact ⟨congrArg some (String.toList_inj.mp texts), parts⟩

/-- One stream for each entry. -/
def streamsOf (entries : List Logged) : List LokiStream :=
  entries.map fun e =>
    { labels := (Dict.empty.set "service_name" e.row.service).set "severity_text" e.row.severity
      values := [(e.timeNs, e.row.message)] }

theorem streamsOf_entries (entries : List Logged) :
    (streamsOf entries).flatMap LokiStream.entries = entries.map Logged.entry := by
  induction entries with
  | nil => rfl
  | cons e rest ih =>
    simp only [streamsOf, List.map_cons, List.flatMap_cons] at ih ⊢
    rw [ih]
    simp [LokiStream.entries, Logged.entry, Dict.get?_set]

open Classical in
/-- A Loki that fails on all but plain queries. -/
noncomputable def strictLoki (held : List Logged) : Loki where
  queryRange query _ _ limit :=
    if found : ∃ asked : Option String × Option String,
        PlainQuery asked.1 asked.2 ∧ query = logQuery asked.1 asked.2 ∧ 0 < limit then
      .ok (streamsOf ((held.filter fun e => selected found.choose.1 found.choose.2 e.row).take
        limit.toNat))
    else .error ⟨"HTTPStatusError", "", false⟩

theorem strictLoki_serves (startMs endMs : ℤ) (held : List Logged) :
    (strictLoki held).Serves startMs endMs held where
  answers service contains limit plain positive := by
    have found : ∃ asked : Option String × Option String, PlainQuery asked.1 asked.2 ∧
        logQuery service contains = logQuery asked.1 asked.2 ∧ 0 < limit :=
      ⟨(service, contains), plain, rfl, positive⟩
    obtain ⟨asked, text, -⟩ := found.choose_spec
    obtain ⟨same, same'⟩ := logQuery_inj asked text
    refine ⟨_, dif_pos found, ?_⟩
    rw [streamsOf_entries, ← same, ← same']

theorem strictLoki_answers {held : List Logged} {service contains : Option String}
    {start stop limit : ℤ} {streams : List LokiStream}
    (answered : (strictLoki held).queryRange (logQuery service contains) start stop limit = .ok streams) :
    PlainQuery service contains ∧ 0 < limit := by
  by_cases found : ∃ asked : Option String × Option String, PlainQuery asked.1 asked.2 ∧
      logQuery service contains = logQuery asked.1 asked.2 ∧ 0 < limit
  · obtain ⟨asked, plain, text, positive⟩ := found
    obtain ⟨rfl, rfl⟩ := logQuery_inj plain text
    exact ⟨plain, positive⟩
  · have refused : (strictLoki held).queryRange (logQuery service contains) start stop limit =
        .error ⟨"HTTPStatusError", "", false⟩ := dif_neg found
    rw [refused] at answered
    cases answered

section
variable [LowerCase] {f : LogFilter} {startMs endMs : ℤ} {held : List Logged}

/-- A store on the strict Loki agrees with a fixture only if it gets an answer. -/
theorem agrees_answered (agrees : Agrees f startMs endMs held) :
    PlainQuery (given f.service) (given f.contains) ∧ ∀ n ∈ f.limit, 0 ≤ n := by
  obtain ⟨rows, found, -⟩ := agrees ⟨strictLoki held, startMs, endMs⟩
    (.init { logs := held.map Logged.row }) rfl rfl (strictLoki_serves startMs endMs held) (.refl _)
  rw [LgtmStore.searchLogs, bind_ok_iff] at found
  obtain ⟨streams, answered, -⟩ := found
  obtain ⟨plain, positive⟩ := strictLoki_answers answered
  exact ⟨plain, backendLimit_pos_iff.mp positive⟩

/-- A fixture that lists the copies of a row first among the rows of its time and
service. -/
theorem agrees_listing (window : Held startMs endMs held) (agrees : Agrees f startMs endMs held)
    (nonzero : f.limit ≠ some 0) (y : LogRow) :
    ∃ kept cut, kept.Perm ((shown f held).map fun e => bare e.row) ∧
      (kept ++ cut).Perm ((held.filter fun e => f.wants e.row).map Logged.row) ∧
      (cut ≠ [] → ∃ n, f.limit = some n ∧ kept.length = n) ∧
      ∀ a ∈ kept, ∀ b ∈ cut, logOrder a < logOrder b ∨ logOrder a = logOrder b ∧ (b = y → a = y) := by
  classical
  obtain ⟨plain, nonneg⟩ := agrees_answered agrees
  let order : LogRow → (ℤ ×ₗ String) ×ₗ ℕ := fun row => toLex (logOrder row, if row = y then 0 else 1)
  let logs := sortedBy order (held.map Logged.row)
  have listed : logs.Perm (held.map Logged.row) := sortedBy_perm _ _
  let s : LgtmStore := ⟨strictLoki held, startMs, endMs⟩
  have serves := strictLoki_serves startMs endMs held
  obtain ⟨rows, found, same, -⟩ := agrees s (.init { logs }) rfl rfl serves listed
  obtain ⟨rows', found', -, returned⟩ := searchLogs_serves (s := s) window serves plain nonneg
  obtain rfl := Except.ok.inj (found.symm.trans found')
  rw [if_neg nonzero] at returned
  have ordered : (logs.filter f.wants).Pairwise fun a b => order a ≤ order b :=
    (sortedBy_pairwise order _).sublist List.filter_sublist
  have sorted : sortedBy logOrder (logs.filter f.wants) = logs.filter f.wants :=
    List.Pairwise.insertionSort_eq (ordered.imp fun {a b} le => by
      rcases Prod.Lex.le_iff.mp le with less | ⟨equal, -⟩
      · exact less.le
      · exact equal.le)
  have search : (FixtureStore.init { logs }).searchLogs f = f.cut (logs.filter f.wants) :=
    congrArg f.cut sorted
  obtain ⟨cut, whole⟩ := cut_initial f (logs.filter f.wants)
  refine ⟨f.cut (logs.filter f.wants), cut, ?_, ?_, ?_, ?_⟩
  · rw [← search]
    exact same.symm.trans returned
  · have filtered := listed.filter f.wants
    rw [List.filter_map] at filtered
    rw [whole]
    exact filtered
  · intro some_cut
    cases limit : f.limit with
    | none => simp [LogFilter.cut, limit, some_cut] at whole
    | some n =>
      have := nonneg n limit
      have lengths := congrArg List.length whole
      have := List.length_pos_iff.mpr some_cut
      refine ⟨n, rfl, ?_⟩
      simp only [LogFilter.cut, limit, sliceTo, if_pos (nonneg n limit), List.length_append,
        List.length_take] at lengths ⊢
      omega
  · intro a inKept b inCut
    rw [← whole, List.pairwise_append] at ordered
    rcases Prod.Lex.le_iff.mp (ordered.2.2 a inKept b inCut) with less | ⟨equal, marked⟩
    · exact .inl less
    · refine .inr ⟨equal, fun first => ?_⟩
      by_contra other
      simp [order, first, other] at marked

theorem coincide_of_agrees (window : Held startMs endMs held)
    (agrees : Agrees f startMs endMs held) : Coincide f held := by
  obtain ⟨plain, nonneg⟩ := agrees_answered agrees
  refine ⟨plain, nonneg, or_iff_not_imp_left.mpr fun nonzero => ?_⟩
  have extra : NothingExtra f held := by
    intro e taken pass
    have kept : bare e.row ∈ (shown f held).map fun e => bare e.row :=
      List.mem_map_of_mem (List.mem_filter.mpr ⟨taken, pass⟩)
    obtain ⟨rows, cut, same, whole, -, before⟩ := agrees_listing window agrees nonzero e.row
    have returned := same.mem_iff.mpr kept
    have wanted : f.wants e.row = true := by
      obtain ⟨d, wants, row⟩ := List.mem_map.mp (whole.subset (List.mem_append_left cut returned))
      have := (List.mem_filter.mp wants).2
      rw [row] at this
      exact this
    refine ⟨wanted, ?_⟩
    have listed : e.row ∈ rows ++ cut := whole.mem_iff.mpr (List.mem_map_of_mem
      (List.mem_filter.mpr ⟨List.mem_of_mem_filter (List.mem_of_mem_take taken), wanted⟩))
    rcases List.mem_append.mp listed with inRows | inCut
    · obtain ⟨d, -, row⟩ := List.mem_map.mp (same.mem_iff.mp inRows)
      rw [← row]
      rfl
    · rcases before _ returned _ inCut with less | ⟨-, first⟩
      · exact absurd less (lt_irrefl (logOrder e.row))
      · exact first rfl
  refine ⟨extra, fun e member wants left => ?_⟩
  have full : (shown f held).map (fun e => bare e.row) = (shown f held).map Logged.row := by
    refine List.map_congr_left fun e kept => ?_
    obtain ⟨taken, pass⟩ := List.mem_filter.mp kept
    exact (extra e taken pass).2
  obtain ⟨rows, cut, same, whole, limited, before⟩ := agrees_listing window agrees nonzero e.row
  rw [full] at same
  have rest : cut.Perm ((missing f held).map Logged.row) := by
    rw [← List.perm_append_left_iff ((shown f held).map Logged.row)]
    refine (same.symm.append_right cut).trans (whole.trans ?_)
    rw [← List.map_append]
    exact (wanted_split extra).map Logged.row
  have inCut : e.row ∈ cut :=
    rest.mem_iff.mpr (List.mem_map_of_mem (mem_missing.mpr ⟨member, wants, left⟩))
  obtain ⟨n, limit, count⟩ := limited (List.ne_nil_of_mem inCut)
  have shownCount : ((shown f held).length : ℤ) = n := by
    rw [← count, same.length_eq, List.length_map]
  have handedCount : ((handed f held).length : ℤ) ≤ n := by
    have taken := List.length_take_le (backendLimit f).toNat (matched f held)
    rw [← handed, backendLimit_some limit fun zero => nonzero (zero ▸ limit)] at taken
    have := nonneg n limit
    omega
  have sub := List.length_filter_le (fun e : Logged => passes f e.row) (handed f held)
  have allPass : shown f held = handed f held :=
    List.filter_sublist.eq_of_length_le (by rw [← shown]; omega)
  refine ⟨n, limit, by rw [← allPass, shownCount], fun d taken => ?_⟩
  have kept : d ∈ shown f held := allPass ▸ taken
  refine ⟨(List.mem_filter.mp kept).2, ?_⟩
  rcases before _ (same.mem_iff.mpr (List.mem_map_of_mem kept)) _ inCut with less | ⟨-, first⟩
  · exact .inl less
  · exact .inr (first rfl)

/-- The stores agree on a search exactly where the cuts fall alike. -/
theorem search_logs_agree_iff (window : Held startMs endMs held) :
    Agrees f startMs endMs held ↔ Coincide f held :=
  ⟨coincide_of_agrees window, agrees_of_coincide window⟩

end

section Sample

/-- Lower case of ASCII letters. -/
@[reducible] def asciiLower : LowerCase := ⟨fun text => String.ofList (text.toList.map Char.toLower)⟩

attribute [local instance] asciiLower

def timeoutLog (message : String) (named : message ≠ "") : Logged where
  row := { time := 5, service := "cart", severity := "error", message
           named := ⟨by decide, by decide, named⟩ }
  timeNs := 6000 * 10 ^ 6

theorem timeoutLog_held (message : String) (named : message ≠ "") :
    Held 1000 61000 [timeoutLog message named] where
  ordered := List.pairwise_singleton _ _
  inside := by simp [timeoutLog]
  timed := by simp [timeoutLog, relSeconds]

def timeoutSearch : LogFilter := { severityMin := some "error", contains := some "timeout" }

theorem search_logs_agree_iff_timeout :
    Agrees timeoutSearch 1000 61000 [timeoutLog "read timeout" (by decide)] :=
  (search_logs_agree_iff (timeoutLog_held _ _)).mpr
    { plain := by decide
      nonneg := by simp [timeoutSearch]
      same := by
        refine .inr ⟨fun e taken _ => ?_, fun e member _ left => ?_⟩
        · obtain rfl := List.mem_singleton.mp (List.mem_of_mem_filter (List.mem_of_mem_take taken))
          exact ⟨by decide +kernel, rfl⟩
        · obtain rfl := List.mem_singleton.mp member
          rcases left with refused | dropped
          · exact absurd refused (by decide +kernel)
          · cases dropped }

/-- The live store misses a text in upper case. -/
theorem upper_case_missed : ¬ ∀ (f : LogFilter) (startMs endMs : ℤ) (held : List Logged),
    Held startMs endMs held → Agrees f startMs endMs held := by
  intro agree
  have window := timeoutLog_held "Timeout on read" (by decide)
  obtain ⟨-, missed⟩ := (coincide_of_agrees window (agree timeoutSearch _ _ _ window)).same.resolve_left
    (by simp [timeoutSearch])
  obtain ⟨n, limit, -⟩ := missed _ (List.mem_singleton_self _) (by decide +kernel)
    (.inl (by decide +kernel))
  cases limit

end Sample

end Sentinel.Lgtm
