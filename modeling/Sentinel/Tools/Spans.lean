import Sentinel.Python.Values
import Sentinel.Tools.Store

/-! Queries of the span index: the kind of a span, the service that a client span
calls, and the filters of `find_spans`. -/
namespace Sentinel.Tools
open Python Fixtures

/-- `text.upper()`, by the tables of Unicode. -/
class UpperCase where
  upper : String → String
  upper_capitals : ∀ text, (∀ c ∈ text.toList, c.isUpper = true) → upper text = text

/-- Text in small letters of ASCII is in lower case already. -/
class LowerLetters extends LowerCase where
  lower_letters : ∀ text, (∀ c ∈ text.toList, c.isLower = true) → lower text = text

/-- `row.attributes.get(key)`; `None` is null. -/
def attributeOf (row : TraceRow) (key : String) : Json := (row.attributes.lookup key).getD .null

/-- `-` before each capital but the first character, as the regular expression puts it. -/
def hyphenate : List Char → List Char
  | [] => []
  | c :: rest => c :: rest.flatMap fun d => if 'A' ≤ d ∧ d ≤ 'Z' then ['-', d] else [d]

/-- The arguments of `find_spans`. -/
structure SpanFilter where
  service : Option String := none
  spanKind : Option String := none
  status : Option String := none
  rpcCallee : Option String := none
  operationContains : Option String := none
  start : Option ℤ := none
  stop : Option ℤ := none
  limit : Option ℤ := none

def spanOrder (row : TraceRow) : ℤ ×ₗ String ×ₗ String := toLex (row.time, toLex (row.traceId, row.spanId))

section
variable [LowerCase]

def spanKind (row : TraceRow) : Option String :=
  match attributeOf row "span.kind" with
  | .str value => some (LowerCase.lower value)
  | _ => none

/-- `_rpc_callee`: the service that an operation like `oteldemo.PaymentService/Charge`
names. -/
def rpcCallee (text : Json) : Option String :=
  match text with
  | .str text =>
    if '/' ∈ text.toList then
      let left := text.toList.takeWhile fun c => c ≠ '/'
      let candidates := (left.splitOn '.').filter fun seg =>
        "service".toList <:+ (LowerCase.lower (String.ofList seg)).toList
      candidates.getLast?.bind fun seg =>
        let base := seg.take (seg.length - "Service".length)
        if base = [] then none
        else given (some (LowerCase.lower (String.ofList (hyphenate base))))
    else none
  | _ => none

def calleeFrom (children : Dict String (List TraceRow)) (row : TraceRow) : Option String :=
  let serverChildren := ((children.get? row.spanId).getD []).filter fun c => spanKind c = some "server"
  match serverChildren with
  | child :: _ => some child.service
  | [] =>
    let method := attributeOf row "rpc.method"
    rpcCallee (if method.truthy then method else .str row.operation)

variable [UpperCase]

def SpanFilter.wants (f : SpanFilter) (callee : TraceRow → Option String) (r : TraceRow) : Bool :=
  f.service.all (fun service => decide (r.service = service)) &&
  (given f.spanKind).all (fun kind => decide (Tools.spanKind r = some (LowerCase.lower kind))) &&
  (given f.status).all (fun status => decide (UpperCase.upper r.status = UpperCase.upper status)) &&
  f.start.all (fun start => decide (start ≤ r.time)) && f.stop.all (fun stop => decide (r.time ≤ stop)) &&
  f.operationContains.all (fun text => decide (text.toList <:+: r.operation.toList)) &&
  f.rpcCallee.all fun name => decide (callee r = some name)

def filterSpans (rows : List TraceRow) (callee : TraceRow → Option String) (f : SpanFilter) :
    List TraceRow :=
  let out := sortedBy spanOrder (rows.filter (f.wants callee))
  match f.limit with
  | some limit => sliceTo limit out
  | none => out

namespace FixtureStore

def calleeOf (s : FixtureStore) (row : TraceRow) : Option String := calleeFrom s.children row

def findSpans (s : FixtureStore) (f : SpanFilter) : List TraceRow := filterSpans s.spans s.calleeOf f

end FixtureStore

end

end Sentinel.Tools
