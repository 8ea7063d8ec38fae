import Sentinel.Tools.Attribution

/-! What supports the origin of a failure. The deepest error spans vote for a service or
a call; a call whose callee is not known counts for `unknown`, which may also be the name
of a service. -/
namespace Sentinel.Tools
open Python Fixtures

inductive Answer where
  | service (name : String)
  | edge (caller callee : String)
  deriving DecidableEq

/-- The answer that an origin gives, if it names one. -/
def Origin.Gives (o : Origin) : Answer → Prop
  | .service name => o.classification = .service ∧ o.service = some name
  | .edge caller callee =>
    o.classification = .edge ∧ o.caller = some caller ∧ o.callee = some callee

def Answer.vote : Answer → Vote
  | .service name => (.service, name, "", "")
  | .edge caller callee => (.edge, "", caller, callee)

theorem Answer.vote_injective : Function.Injective Answer.vote := by
  rintro (a | ⟨a, b⟩) (c | ⟨c, d⟩) same <;> simp_all [Answer.vote]

theorem gives_unique {o : Origin} {a b : Answer} (one : o.Gives a) (other : o.Gives b) : a = b := by
  cases a with
  | service name =>
    cases b with
    | service name' => rw [Option.some.inj (one.2.symm.trans other.2)]
    | edge caller callee => cases one.1.symm.trans other.1
  | edge caller callee =>
    cases b with
    | service name => cases one.1.symm.trans other.1
    | edge caller' callee' =>
      rw [Option.some.inj (one.2.1.symm.trans other.2.1),
        Option.some.inj (one.2.2.symm.trans other.2.2)]

theorem gives_named {o : Origin} {a : Answer} (gives : o.Gives a) : o.classification ≠ .unknown := by
  cases a with
  | service name =>
    rw [gives.1]
    decide
  | edge caller callee =>
    rw [gives.1]
    decide

/-! ### The frontier of a set of spans -/

section
variable [UpperCase]

def ErringChild (rows : List TraceRow) (r : TraceRow) : Prop :=
  ∃ c ∈ rows, isError c = true ∧ parentOf c = some r.spanId

/-- An error span without an erring child, or any error span if each has one. -/
def Leaf (rows : List TraceRow) (r : TraceRow) : Prop :=
  isError r = true ∧
    (¬ ErringChild rows r ∨ ∀ q ∈ rows, isError q = true → ErringChild rows q)

def Deepest (rows : List TraceRow) (r : TraceRow) : Prop :=
  Leaf rows r ∧ ∀ q ∈ rows, Leaf rows q → depth rows q ≤ depth rows r

instance (rows : List TraceRow) : DecidablePred (ErringChild rows) := fun r => by
  unfold ErringChild
  infer_instance

instance (rows : List TraceRow) : DecidablePred (Leaf rows) := fun r => by
  unfold Leaf
  infer_instance

instance (rows : List TraceRow) : DecidablePred (Deepest rows) := fun r => by
  unfold Deepest
  infer_instance

def frontier (rows : List TraceRow) : List TraceRow := rows.filter fun r => Deepest rows r

/-- The store of a set of spans. -/
def storeOf (rows : List TraceRow) : FixtureStore := .init { traces := rows }

variable {rows : List TraceRow} (distinct : (rows.map TraceRow.spanId).Nodup)
include distinct

omit [UpperCase] in
theorem spans_storeOf : (storeOf rows).spans = rows :=
  keepFirst_eq_self distinct fun _ _ => List.not_mem_nil

omit [UpperCase] in
theorem childrenOf_storeOf (id : String) :
    (storeOf rows).childrenOf id = rows.filter fun c => parentOf c = some id := by
  have children : (storeOf rows).children = collect parentOf .empty rows :=
    congrArg (collect parentOf .empty) (spans_storeOf distinct)
  rw [FixtureStore.childrenOf, children, get?_collect]
  simp

theorem erring_storeOf {r : TraceRow} (member : r ∈ rows) : erring (storeOf rows) r = isError r := by
  rw [erring, spans_storeOf distinct, Bool.eq_iff_iff, decide_eq_true_iff]
  constructor
  · intro known
    obtain ⟨q, inErrors, same⟩ := List.mem_map.mp known
    obtain ⟨inRows, errs⟩ := List.mem_filter.mp inErrors
    rwa [← List.inj_on_of_nodup_map distinct inRows member same]
  · intro errs
    exact List.mem_map_of_mem (List.mem_filter.mpr ⟨member, errs⟩)

theorem any_erring_iff (r : TraceRow) :
    ((storeOf rows).childrenOf r.spanId).any (erring (storeOf rows)) = true ↔
      ErringChild rows r := by
  rw [childrenOf_storeOf distinct, List.any_eq_true]
  constructor
  · rintro ⟨c, child, errs⟩
    obtain ⟨member, parent⟩ := List.mem_filter.mp child
    rw [erring_storeOf distinct member] at errs
    exact ⟨c, member, errs, of_decide_eq_true parent⟩
  · rintro ⟨c, member, errs, parent⟩
    refine ⟨c, List.mem_filter.mpr ⟨member, decide_eq_true parent⟩, ?_⟩
    rwa [erring_storeOf distinct member]

/-- The leaves that the tool walks to are those of the definition, in their order. -/
theorem leaves_storeOf : leaves (storeOf rows) = rows.filter fun r => Leaf rows r := by
  have found : (rows.filter fun r => erring (storeOf rows) r &&
      !((storeOf rows).childrenOf r.spanId).any (erring (storeOf rows))) =
        rows.filter fun r => isError r && !decide (ErringChild rows r) := by
    apply List.filter_congr
    intro r member
    rw [erring_storeOf distinct member, Bool.eq_iff_iff, Bool.and_eq_true, Bool.and_eq_true,
      Bool.not_eq_true', ← Bool.not_eq_true, any_erring_iff distinct r]
    simp
  have errors : rows.filter (erring (storeOf rows)) = rows.filter isError :=
    List.filter_congr fun r member => erring_storeOf distinct member
  simp only [leaves, spans_storeOf distinct, found, errors]
  split
  · rename_i none_
    have all : ∀ q ∈ rows, isError q = true → ErringChild rows q := by
      intro q member errs
      by_contra childless
      exact List.filter_eq_nil_iff.mp (List.isEmpty_iff.mp none_) q member (by simp [errs, childless])
    apply List.filter_congr
    intro r _
    rw [Bool.eq_iff_iff, decide_eq_true_iff]
    exact ⟨fun errs => ⟨errs, .inr all⟩, And.left⟩
  · rename_i some_
    have notAll : ¬ ∀ q ∈ rows, isError q = true → ErringChild rows q := by
      intro all
      apply some_
      rw [List.isEmpty_iff, List.filter_eq_nil_iff]
      intro q member
      simpa using all q member
    apply List.filter_congr
    intro r _
    simp [Leaf, notAll]

omit [UpperCase] distinct in
/-- The elements with the greatest value are those that no element exceeds. -/
theorem eq_max?_iff {α : Type} {f : α → ℕ} {xs : List α} {a : α} (member : a ∈ xs) :
    f a = ((xs.map f).max?).getD 0 ↔ ∀ b ∈ xs, f b ≤ f a := by
  have filled : xs.map f ≠ [] := List.ne_nil_of_mem (List.mem_map_of_mem member)
  obtain ⟨most, found⟩ := Option.ne_none_iff_exists'.mp (mt List.max?_eq_none_iff.mp filled)
  obtain ⟨attained, bound⟩ := List.max?_eq_some_iff.mp found
  obtain ⟨b, inB, greatest⟩ := List.mem_map.mp attained
  rw [found, Option.getD_some]
  constructor
  · rintro rfl c inC
    exact bound _ (List.mem_map_of_mem inC)
  · intro above
    exact le_antisymm (bound _ (List.mem_map_of_mem member)) (greatest ▸ above b inB)

theorem deepest_storeOf : deepest (storeOf rows) = frontier rows := by
  have leaves_ := leaves_storeOf distinct
  rw [deepest, maxDepth, spans_storeOf distinct, leaves_, List.filter_filter, frontier]
  apply List.filter_congr
  intro r member
  rw [Bool.eq_iff_iff, Bool.and_eq_true, decide_eq_true_iff, decide_eq_true_iff, decide_eq_true_iff]
  rw [Deepest, and_comm]
  apply and_congr_right
  intro leaf
  have within : r ∈ rows.filter fun r => Leaf rows r :=
    List.mem_filter.mpr ⟨member, decide_eq_true leaf⟩
  rw [eq_max?_iff within]
  simp [List.mem_filter]

end

/-! ### What the frontier supports -/

section
variable [LowerCase]

theorem rpcCallee_ne_empty (text : Json) : rpcCallee text ≠ some "" := by
  intro named
  unfold rpcCallee at named
  split at named
  · split at named
    · obtain ⟨seg, -, named⟩ := Option.bind_eq_some_iff.mp named
      simp only [] at named
      split at named
      · cases named
      · exact absurd (Option.filter_eq_some_iff.mp named).2 (by simp)
    · cases named
  · cases named

theorem calleeOf_ne_empty (s : FixtureStore) (r : TraceRow) : s.calleeOf r ≠ some "" := by
  rw [FixtureStore.calleeOf, calleeFrom]
  split
  · rename_i child rest _
    exact fun named => child.named.2.2.1 (Option.some.inj named)
  · exact rpcCallee_ne_empty _

variable [UpperCase]

/-- The service has an erring server span. -/
def ServerErrs (rows : List TraceRow) (service : String) : Prop :=
  ∃ q ∈ rows, isError q = true ∧ spanKind q = some "server" ∧ q.service = service

instance (rows : List TraceRow) : DecidablePred (ServerErrs rows) := fun service => by
  unfold ServerErrs
  infer_instance

/-- What makes a span of the frontier speak for an answer. -/
def Supports (rows : List TraceRow) (r : TraceRow) : Answer → Prop
  | .service name =>
    (spanKind r ≠ some "client" ∧ r.service = name) ∨
      (spanKind r = some "client" ∧ (storeOf rows).calleeOf r = some name ∧ ServerErrs rows name)
  | .edge caller callee =>
    spanKind r = some "client" ∧ r.service = caller ∧
      ((storeOf rows).calleeOf r = some callee ∨
        (storeOf rows).calleeOf r = none ∧ callee = "unknown") ∧ ¬ ServerErrs rows callee

instance (rows : List TraceRow) (r : TraceRow) : DecidablePred (Supports rows r)
  | .service _ => inferInstanceAs (Decidable ((_ ∧ _) ∨ (_ ∧ _ ∧ _)))
  | .edge _ _ => inferInstanceAs (Decidable (_ ∧ _ ∧ (_ ∨ _ ∧ _) ∧ ¬ _))

/-- The number of spans of the frontier that support an answer. -/
def support (rows : List TraceRow) (a : Answer) : ℕ :=
  (frontier rows).countP fun r => Supports rows r a

/-- A call without a known callee, where a service of the name `unknown` errs. -/
def Stray (rows : List TraceRow) (r : TraceRow) : Prop :=
  spanKind r = some "client" ∧ (storeOf rows).calleeOf r = none ∧ ServerErrs rows "unknown"

/-- The votes of the frontier. -/
def votes (rows : List TraceRow) : List Vote := (frontier rows).map (voteOf (storeOf rows))

def votesFor (rows : List TraceRow) (a : Answer) : ℕ := (votes rows).countP fun vote => vote = a.vote

variable [StrRepr]

/-- What is promised of the origin of the spans. -/
structure Sound (rows : List TraceRow) : Prop where
  unknown_iff : (errorOrigin (storeOf rows)).classification = .unknown ↔
    ∀ r ∈ rows, isError r = false
  answered : (errorOrigin (storeOf rows)).classification ≠ .unknown →
    ∃ a, (errorOrigin (storeOf rows)).Gives a
  supported : ∀ a, (errorOrigin (storeOf rows)).Gives a → ∃ r ∈ frontier rows, Supports rows r a
  most : ∀ a b, (errorOrigin (storeOf rows)).Gives a → support rows b ≤ support rows a

omit [StrRepr] in
/-- No call without a callee decides for the service `unknown`. -/
def Unconfused (rows : List TraceRow) : Prop :=
  (∀ r ∈ frontier rows, ¬ Stray rows r) ∨
    ¬ Leads (votes rows) (Answer.service "unknown").vote ∨
    (∃ r ∈ frontier rows, Supports rows r (.service "unknown")) ∧
      ∀ b, support rows b ≤ support rows (.service "unknown")

end

section
variable [LowerCase] [UpperCase] {rows : List TraceRow}
  (distinct : (rows.map TraceRow.spanId).Nodup)
include distinct

theorem mem_serverErrorServices (name : String) :
    name ∈ serverErrorServices (storeOf rows) ↔ ServerErrs rows name := by
  rw [serverErrorServices, spans_storeOf distinct, List.mem_map]
  simp only [List.mem_filter, Bool.and_eq_true, decide_eq_true_eq, and_assoc, ServerErrs]

theorem stray_vote {r : TraceRow} (stray : Stray rows r) :
    voteOf (storeOf rows) r = (Answer.service "unknown").vote := by
  obtain ⟨client, missing, errs⟩ := stray
  rw [← mem_serverErrorServices distinct] at errs
  simp [voteOf, client, missing, Tools.given, errs, Answer.vote]

theorem voteOf_client {r : TraceRow} (client : spanKind r = some "client") :
    voteOf (storeOf rows) r =
      (if ServerErrs rows (((storeOf rows).calleeOf r).getD "unknown") then
        Answer.service (((storeOf rows).calleeOf r).getD "unknown")
      else .edge r.service (((storeOf rows).calleeOf r).getD "unknown")).vote := by
  have same : Tools.given ((storeOf rows).calleeOf r) = (storeOf rows).calleeOf r := by
    cases callee : (storeOf rows).calleeOf r with
    | none => rfl
    | some name =>
      refine given_of_ne fun empty => calleeOf_ne_empty (storeOf rows) r ?_
      rw [callee, empty]
  rw [voteOf, if_pos client]
  simp only [same, mem_serverErrorServices distinct]
  split <;> rfl

omit distinct in
theorem supports_called {r : TraceRow} {known : String} (client : spanKind r = some "client")
    (callee : (storeOf rows).calleeOf r = some known) (a : Answer) :
    Supports rows r a ↔
      (if ServerErrs rows known then Answer.service known else .edge r.service known) = a := by
  cases a with
  | service name =>
    constructor
    · rintro (⟨other, -⟩ | ⟨-, same, errs⟩)
      · exact absurd client other
      · obtain rfl := Option.some.inj (callee.symm.trans same)
        rw [if_pos errs]
    · intro same
      split at same
      · rename_i errs
        obtain rfl := Answer.service.inj same
        exact .inr ⟨client, callee, errs⟩
      · cases same
  | edge caller name =>
    constructor
    · rintro ⟨-, rfl, same | ⟨missing, -⟩, clean⟩
      · obtain rfl := Option.some.inj (callee.symm.trans same)
        rw [if_neg clean]
      · cases callee.symm.trans missing
    · intro same
      split at same
      · cases same
      · rename_i clean
        obtain ⟨rfl, rfl⟩ := Answer.edge.inj same
        exact ⟨client, rfl, .inl callee, clean⟩

omit distinct in
theorem supports_uncalled {r : TraceRow} (client : spanKind r = some "client")
    (missing : (storeOf rows).calleeOf r = none) (a : Answer) :
    Supports rows r a ↔ Answer.edge r.service "unknown" = a ∧ ¬ ServerErrs rows "unknown" := by
  cases a with
  | service name => simp [Supports, client, missing]
  | edge caller name =>
    simp only [Supports, client, missing, true_and, reduceCtorEq, false_or, Answer.edge.injEq]
    constructor
    · rintro ⟨rfl, rfl, clean⟩
      exact ⟨⟨rfl, rfl⟩, clean⟩
    · rintro ⟨⟨rfl, rfl⟩, clean⟩
      exact ⟨rfl, rfl, clean⟩

/-- A span that is no stray supports just what it votes for. -/
theorem supports_iff (r : TraceRow) (a : Answer) :
    Supports rows r a ↔ voteOf (storeOf rows) r = a.vote ∧ ¬ Stray rows r := by
  by_cases client : spanKind r = some "client"
  · rw [voteOf_client distinct client, Answer.vote_injective.eq_iff]
    cases callee : (storeOf rows).calleeOf r with
    | none =>
      rw [supports_uncalled client callee]
      by_cases errs : ServerErrs rows "unknown"
      · have stray : Stray rows r := ⟨client, callee, errs⟩
        simp [errs, stray]
      · have kept : ¬ Stray rows r := fun stray => errs stray.2.2
        simp [errs, kept]
    | some known =>
      have kept : ¬ Stray rows r := fun stray => by cases callee.symm.trans stray.2.1
      rw [supports_called client callee, Option.getD_some, and_iff_left kept]
  · cases a with
    | service name => simp [Supports, Stray, voteOf, client, Answer.vote]
    | edge caller callee => simp [Supports, Stray, voteOf, client, Answer.vote]

theorem support_le (a : Answer) : support rows a ≤ votesFor rows a := by
  rw [support, votesFor, votes, List.countP_map]
  apply List.countP_mono_left
  intro r _ supported
  have both := (supports_iff distinct r a).mp (of_decide_eq_true supported)
  simp [both.1]

/-- Without strays among its votes an answer is supported as often as it is voted for. -/
theorem support_eq {a : Answer}
    (clear : ∀ r ∈ frontier rows, Stray rows r → voteOf (storeOf rows) r ≠ a.vote) :
    support rows a = votesFor rows a := by
  rw [support, votesFor, votes, List.countP_map]
  apply List.countP_congr
  intro r member
  simp only [decide_eq_true_eq, supports_iff distinct, Function.comp_apply]
  exact ⟨And.left, fun cast => ⟨cast, fun stray => clear r member stray cast⟩⟩

variable [StrRepr]

omit [StrRepr] distinct in
theorem votesFor_le {a : Answer} (leads : Leads (votes rows) a.vote) (b : Answer) :
    votesFor rows b ≤ votesFor rows a :=
  leads.count_le b.vote

/-- With an error span the origin gives the answer that leads among the votes. -/
theorem exists_gives (erred : ∃ r ∈ rows, isError r = true) :
    ∃ a, Leads (votes rows) a.vote ∧ (errorOrigin (storeOf rows)).Gives a := by
  obtain ⟨r, member, errs⟩ := erred
  have some_ : (storeOf rows).spans.filter isError ≠ [] := by
    rw [spans_storeOf distinct]
    exact List.ne_nil_of_mem (List.mem_filter.mpr ⟨member, errs⟩)
  have shape := errorOrigin_shape some_
  rw [deepest_storeOf distinct] at shape
  rcases shape with ⟨name, leads, kind, service⟩ | ⟨caller, callee, leads, kind, ends⟩
  · exact ⟨.service name, leads, kind, service⟩
  · exact ⟨.edge caller callee, leads, kind, ends⟩

omit [LowerCase] [StrRepr] distinct in
/-- Without an error span there is no frontier and no origin. -/
theorem frontier_of_clean (clean : ∀ r ∈ rows, isError r = false) : frontier rows = [] := by
  apply List.filter_eq_nil_iff.mpr
  intro r member deepest
  have errs := (of_decide_eq_true deepest).1.1
  rw [clean r member] at errs
  cases errs

theorem unknown_of_clean (clean : ∀ r ∈ rows, isError r = false) :
    (errorOrigin (storeOf rows)).classification = .unknown := by
  apply errorOrigin_clean
  rw [spans_storeOf distinct, List.filter_eq_nil_iff]
  intro r member
  simp [clean r member]

omit distinct in
/-- Where an answer is given, soundness is about that answer. -/
theorem sound_iff_of_gives (erred : ∃ r ∈ rows, isError r = true) {a : Answer}
    (gives : (errorOrigin (storeOf rows)).Gives a) :
    Sound rows ↔ (∃ r ∈ frontier rows, Supports rows r a) ∧ ∀ b, support rows b ≤ support rows a := by
  constructor
  · exact fun sound => ⟨sound.supported a gives, fun b => sound.most a b gives⟩
  · rintro ⟨supported, most⟩
    have some_ : ¬ ∀ r ∈ rows, isError r = false := by
      intro clean
      obtain ⟨r, member, errs⟩ := erred
      rw [clean r member] at errs
      cases errs
    refine ⟨iff_of_false (gives_named gives) some_, fun _ => ⟨a, gives⟩, fun b given => ?_, fun b c given => ?_⟩
    · rw [gives_unique given gives]
      exact supported
    · rw [gives_unique given gives]
      exact most c

omit [StrRepr] in
/-- A leading answer that no stray call votes for is supported, and by the most spans. -/
theorem supported_of_clear {a : Answer} (leads : Leads (votes rows) a.vote)
    (clear : ∀ r ∈ frontier rows, Stray rows r → voteOf (storeOf rows) r ≠ a.vote) :
    (∃ r ∈ frontier rows, Supports rows r a) ∧ ∀ b, support rows b ≤ support rows a := by
  constructor
  · obtain ⟨r, member, cast⟩ := List.mem_map.mp leads.met
    exact ⟨r, member, (supports_iff distinct r a).mpr ⟨cast, fun stray => clear r member stray cast⟩⟩
  · intro b
    rw [support_eq distinct clear]
    exact (support_le distinct b).trans (votesFor_le leads b)

theorem sound_of_clean (clean : ∀ r ∈ rows, isError r = false) : Sound rows := by
  have unknown := unknown_of_clean distinct clean
  have silent {a : Answer} (gives : (errorOrigin (storeOf rows)).Gives a) : False :=
    gives_named gives unknown
  exact ⟨iff_of_true unknown clean, fun named => absurd unknown named,
    fun a gives => (silent gives).elim, fun a b gives => (silent gives).elim⟩

/-- The origin is sound exactly on the sets of spans in which no call without a callee
decides for a service of the name `unknown`. -/
theorem error_origin_sound_iff : Sound rows ↔ Unconfused rows := by
  by_cases erred : ∃ r ∈ rows, isError r = true
  · obtain ⟨a, leads, gives⟩ := exists_gives distinct erred
    rw [sound_iff_of_gives erred gives]
    constructor
    · intro backed
      by_cases confused : Leads (votes rows) (Answer.service "unknown").vote
      · obtain rfl := Answer.vote_injective (leads.unique confused)
        exact .inr (.inr backed)
      · exact .inr (.inl confused)
    · rintro (clear | other | backed)
      · exact supported_of_clear distinct leads fun r member stray => absurd stray (clear r member)
      · refine supported_of_clear distinct leads fun r _ stray cast => other ?_
        rw [← stray_vote distinct stray, cast]
        exact leads
      · by_cases unknown : a = .service "unknown"
        · rw [unknown]
          exact backed
        · refine supported_of_clear distinct leads fun r _ stray cast => unknown ?_
          rw [stray_vote distinct stray] at cast
          exact (Answer.vote_injective cast).symm
  · have clean : ∀ r ∈ rows, isError r = false := by simpa using erred
    exact iff_of_true (sound_of_clean distinct clean) (.inl (by simp [frontier_of_clean clean]))

end

section Sample
attribute [local instance] asciiLowerCase asciiUpperCase quoted

/-- A failed call of a gateway, which is not named after an operation. -/
def gatewaySpan (spanId parent service kind : String) (named : spanId ≠ "" ∧ service ≠ "") :
    TraceRow where
  traceId := "t1"
  spanId := spanId
  parentSpanId := some parent
  time := 0
  service := service
  operation := "GET"
  durationMs := 2
  status := "ERROR"
  attributes := [("span.kind", .str kind)]
  named := ⟨by decide, named.1, named.2, by decide, by decide⟩

/-- A failing service, and below it a call of checkout that reached no server. -/
def lostCall (service : String) (named : service ≠ "") : List TraceRow :=
  [gatewaySpan "s1" "" service "server" ⟨by decide, named⟩,
    gatewaySpan "s2" "s1" "checkout" "client" (by decide)]

theorem lostCall_sound : Sound (lostCall "gateway" (by decide)) := by
  refine (error_origin_sound_iff (by decide)).mpr (.inl ?_)
  intro r _ stray
  exact absurd stray.2.2 (by decide +kernel)

/-- Where the failing service is called `unknown`, it is blamed for the lost call. -/
theorem unknown_blamed_for_call : ¬ ∀ rows : List TraceRow,
    (rows.map TraceRow.spanId).Nodup → Sound rows := by
  intro sound
  have distinct : ((lostCall "unknown" (by decide)).map TraceRow.spanId).Nodup := by decide
  have leaf : ∀ r ∈ (lostCall "unknown" (by decide)).filter fun r =>
      Leaf (lostCall "unknown" (by decide)) r,
      voteOf (storeOf (lostCall "unknown" (by decide))) r = (Answer.service "unknown").vote ∧
        ¬ Supports (lostCall "unknown" (by decide)) r (.service "unknown") := by
    decide +kernel
  have within : ∀ r ∈ frontier (lostCall "unknown" (by decide)),
      r ∈ (lostCall "unknown" (by decide)).filter fun r => Leaf (lostCall "unknown" (by decide)) r := by
    intro r member
    obtain ⟨inRows, deepest⟩ := List.mem_filter.mp member
    exact List.mem_filter.mpr ⟨inRows, decide_eq_true (of_decide_eq_true deepest).1⟩
  obtain ⟨a, leads, gives⟩ := exists_gives distinct ⟨_, List.mem_cons_self, by decide +kernel⟩
  obtain ⟨r, member, cast⟩ := List.mem_map.mp leads.met
  have named := Answer.vote_injective (cast.symm.trans (leaf r (within r member)).1)
  obtain ⟨q, inFrontier, supports⟩ := (sound _ distinct).supported a gives
  rw [named] at supports
  exact (leaf q (within q inFrontier)).2 supports

end Sample

end Sentinel.Tools
