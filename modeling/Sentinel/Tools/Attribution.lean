import Sentinel.Tools.Correlate

/-! The two ways to attribute a fault: from the deepest error spans, and from the error
spans counted by service and kind. Both end in a majority, of votes and of spans, so they
agree where the service or the call with the most error spans leads among the votes. -/
namespace Sentinel.Tools
open Python Fixtures

section
variable [LowerCase] [UpperCase]

/-- The error spans in the order in which they are counted. -/
def errorSpans (s : FixtureStore) : List TraceRow := s.findSpans { status := some "ERROR" }

/-- The service of each erring server span. -/
def serverErring (s : FixtureStore) : List String :=
  ((errorSpans s).filter fun r => spanKind r = some "server").map TraceRow.service

/-- The caller and the callee of each erring client span. -/
def callsErring (s : FixtureStore) : List (String × Option String) :=
  ((errorSpans s).filter fun r => spanKind r = some "client").map fun r =>
    (r.service, s.calleeOf r)

/-- What the error spans count for. -/
def counted (s : FixtureStore) : List (String × Role × Option String) :=
  (errorSpans s).filterMap (countedAs s)

def observe (s : FixtureStore) (key : String × Role × Option String) : FaultObservation where
  service := key.1
  role := key.2.1
  errorCount := ((tally (counted s)).get? key).getD 0
  callee := key.2.2

theorem errorSummary_eq (s : FixtureStore) :
    errorSummary s none = sortedBy (fun o => OrderDual.toDual o.errorCount)
      ((keepFirst id [] (counted s)).map (observe s)) := by
  simp only [errorSummary, items_tally, List.map_map, ← getD_tally]
  rfl

/-- The observations of one role. -/
def ofRole (role : Role) (observations : List FaultObservation) : List FaultObservation :=
  observations.filter fun o => o.role = role && decide (0 < o.errorCount)

section
variable {role : Role} {α : Type} {names : List α} {key : α → String × Role × Option String}
  {s : FixtureStore}

theorem ofRole_errorSummary
    (keys : (counted s).filter (fun k => k.2.1 = role) = names.map key) :
    ofRole role (errorSummary s none) = sortedBy (fun o => OrderDual.toDual o.errorCount)
      ((keepFirst id [] (names.map key)).map (observe s)) := by
  have chosen : ∀ k ∈ keepFirst id [] (counted s),
      (decide ((observe s k).role = role) && decide (0 < (observe s k).errorCount)) =
        decide (k.2.1 = role) := by
    intro k member
    have positive : 0 < (observe s k).errorCount := tally_positive (mem_keepFirst member).1
    rw [decide_eq_true positive, Bool.and_true]
    rfl
  rw [ofRole, errorSummary_eq, filter_sortedBy, List.filter_map, ← keys]
  have first := keepFirst_filter (fun k => decide (k.2.1 = role)) [] (counted s)
  rw [List.filter_nil] at first
  rw [← first]
  exact congrArg _ (congrArg _ (List.filter_congr chosen))

/-- The first observation of a role with the greatest count is that of the name met most often. -/
theorem argmax_ofRole [DecidableEq α] (distinct : Function.Injective key)
    (keys : (counted s).filter (fun k => k.2.1 = role) = names.map key)
    (roles : ∀ a, (key a).2.1 = role) :
    (ofRole role (errorSummary s none)).argmax FaultObservation.errorCount =
      (mode names).map fun a => observe s (key a) := by
  have counts : FaultObservation.errorCount ∘ observe s ∘ key = names.count := by
    funext a
    exact getD_tally_of_filter distinct keys (decide_eq_true (roles a))
  rw [ofRole_errorSummary keys, argmax_sortedBy, argmax_map, argmax_keepFirst, argmax_map,
    Option.map_map, Function.comp_assoc, counts, mode]
  rfl

end

end

theorem given_of_ne {text : String} (filled : text ≠ "") : Tools.given (some text) = some text := by
  simp [Tools.given, filled]

def serverKey (service : String) : String × Role × Option String := (service, .server, none)

def clientKey (call : String × Option String) : String × Role × Option String :=
  (call.1, .client, call.2)

theorem serverKey_injective : Function.Injective serverKey := by
  intro a b same
  exact congrArg Prod.fst same

theorem clientKey_injective : Function.Injective clientKey := by
  rintro ⟨a, e⟩ ⟨b, f⟩ same
  simp only [clientKey, Prod.mk.injEq, true_and] at same
  rw [same.1, same.2]

theorem serverErrors_eq (observations : List FaultObservation) :
    serverErrors observations = (ofRole .server observations).foldl
      (fun d o => d.set o.service o.errorCount) .empty :=
  rfl

/-- The dict of server errors holds the server observations that count an error. -/
theorem serverErrors_items {observations : List FaultObservation}
    (distinct : ((ofRole .server observations).map FaultObservation.service).Nodup) :
    (serverErrors observations).items =
      (ofRole .server observations).map fun o => (o.service, o.errorCount) := by
  have pairs := Dict.items_foldl_set ((ofRole .server observations).map fun o =>
    (o.service, o.errorCount)) (by rwa [List.map_map])
  rw [List.foldl_map] at pairs
  exact pairs

theorem mem_of_argmax_ofRole {role : Role} {observations : List FaultObservation}
    {o : FaultObservation}
    (best : (ofRole role observations).argmax FaultObservation.errorCount = some o) :
    o ∈ observations :=
  List.mem_of_mem_filter (List.argmax_mem best)

theorem argmax_serverErrors {observations : List FaultObservation}
    (distinct : ((ofRole .server observations).map FaultObservation.service).Nodup) :
    ((serverErrors observations).keys.argmax fun service =>
        ((serverErrors observations).get? service).getD 0) =
      ((ofRole .server observations).argmax FaultObservation.errorCount).map
        FaultObservation.service := by
  have keys : (serverErrors observations).keys =
      (ofRole .server observations).map FaultObservation.service := by
    rw [Dict.keys, serverErrors_items distinct, List.map_map]
    rfl
  rw [keys, argmax_map]
  congr 1
  apply argmax_congr
  intro o member
  have entry : (o.service, o.errorCount) ∈ (serverErrors observations).items := by
    rw [serverErrors_items distinct]
    exact List.mem_map_of_mem member
  rw [Function.comp_apply, (Dict.mem_items_iff _).mp entry, Option.getD_some]

section
variable [LowerCase] [UpperCase] {s : FixtureStore}

omit [UpperCase] in
theorem countedAs_eq (s : FixtureStore) (r : TraceRow) :
    countedAs s r =
      if spanKind r = some "server" then some (serverKey r.service)
      else if spanKind r = some "client" then some (clientKey (r.service, s.calleeOf r))
      else none := by
  unfold countedAs
  split
  · rename_i server
    rw [if_pos server, serverKey]
  · rename_i client
    rw [if_neg (by simp [client]), if_pos client, clientKey]
  · rename_i server client
    rw [if_neg server, if_neg client]

/-- Of the keys, those of one role are the keys of the spans of that kind. -/
theorem filter_counted (s : FixtureStore) :
    (counted s).filter (fun k => k.2.1 = .server) = (serverErring s).map serverKey ∧
      (counted s).filter (fun k => k.2.1 = .client) = (callsErring s).map clientKey := by
  simp only [counted, serverErring, callsErring]
  induction errorSpans s with
  | nil => exact ⟨rfl, rfl⟩
  | cons r rest ih =>
    have key := countedAs_eq s r
    by_cases server : spanKind r = some "server"
    · rw [if_pos server] at key
      simp [key, server, ih, serverKey]
    · rw [if_neg server] at key
      by_cases client : spanKind r = some "client"
      · rw [if_pos client] at key
        simp [key, client, ih, clientKey]
      · rw [if_neg client] at key
        simp [key, server, client, ih]

theorem services_distinct (s : FixtureStore) :
    ((ofRole .server (errorSummary s none)).map FaultObservation.service).Nodup := by
  rw [ofRole_errorSummary (filter_counted s).1]
  have perm := (sortedBy_perm (fun o : FaultObservation => OrderDual.toDual o.errorCount)
    ((keepFirst id [] ((serverErring s).map serverKey)).map (observe s))).map
      FaultObservation.service
  rw [perm.nodup_iff, List.map_map]
  have unique := keepFirst_nodup id [] ((serverErring s).map serverKey)
  rw [List.map_id] at unique
  refine unique.map_on ?_
  intro x inX y inY same
  obtain ⟨a, -, rfl⟩ := List.mem_map.mp (mem_keepFirst inX).1
  obtain ⟨b, -, rfl⟩ := List.mem_map.mp (mem_keepFirst inY).1
  exact congrArg serverKey same

/-- `correlate_attribute_fault` of what `traces_error_summary` returns for all spans. -/
def attributedSummary (s : FixtureStore) : Py Attribution := do
  let params ← AttributeFaultInput.validate (errorSummary s none)
  pure (attributeFault params)

theorem attributedSummary_ok {o : FaultObservation} (member : o ∈ errorSummary s none) :
    ∃ nonempty, attributedSummary s = .ok (attributeFault ⟨errorSummary s none, nonempty⟩) := by
  have nonempty : errorSummary s none ≠ [] := List.ne_nil_of_mem member
  refine ⟨nonempty, ?_⟩
  rw [attributedSummary, AttributeFaultInput.validate, dif_pos nonempty]
  rfl

theorem attributed_service {service : String} (leads : Leads (serverErring s) service) :
    ∃ a, attributedSummary s = .ok a ∧ a.kind = .service ∧ a.service = some service := by
  have best := argmax_ofRole serverKey_injective (filter_counted s).1 fun _ => rfl
  rw [mode_eq_some_iff.mpr leads, Option.map_some] at best
  have errors := argmax_serverErrors (services_distinct s)
  rw [best, Option.map_some] at errors
  obtain ⟨nonempty, returned⟩ := attributedSummary_ok (mem_of_argmax_ofRole best)
  refine ⟨_, returned, ?_⟩
  simp only [attributeFault, errors]
  exact ⟨trivial, rfl⟩

theorem attributed_edge {caller : String} {callee : Option String} (clean : serverErring s = [])
    (leads : Leads (callsErring s) (caller, callee)) :
    ∃ a, attributedSummary s = .ok a ∧ a.kind = .edge ∧ a.caller = some caller ∧
      a.callee = callee := by
  have none := argmax_ofRole serverKey_injective (filter_counted s).1 fun _ => rfl
  have errors := argmax_serverErrors (services_distinct s)
  rw [none, clean, mode, List.argmax_nil, Option.map_none, Option.map_none] at errors
  have empty : ofRole .server (errorSummary s Option.none) = [] := by
    rw [ofRole_errorSummary (filter_counted s).1, clean]
    rfl
  have noErrors : serverErrors (errorSummary s Option.none) = .empty := by
    rw [serverErrors_eq, empty]
    rfl
  have best := argmax_ofRole clientKey_injective (filter_counted s).2 fun _ => rfl
  rw [mode_eq_some_iff.mpr leads, Option.map_some] at best
  obtain ⟨nonempty, returned⟩ := attributedSummary_ok (mem_of_argmax_ofRole best)
  refine ⟨_, returned, ?_⟩
  have clients : (errorSummary s Option.none).filter (fun o => o.role = .client &&
      decide (0 < o.errorCount) &&
        !(((serverErrors (errorSummary s Option.none)).get? (o.callee.getD "")).isSome)) =
      ofRole .client (errorSummary s Option.none) := by
    simp [noErrors, ofRole]
  simp only [attributeFault, errors, clients, best]
  exact ⟨trivial, rfl, rfl⟩

theorem not_attributed (servers : serverErring s = []) (clients : callsErring s = []) :
    ¬ Returns (attributedSummary s) := by
  have counts : counted s = [] := by
    have keys := filter_counted s
    rw [servers, clients] at keys
    refine List.eq_nil_iff_forall_not_mem.mpr fun k member => ?_
    obtain ⟨service, role, callee⟩ := k
    cases role with
    | server => exact List.filter_eq_nil_iff.mp keys.1 _ member (by simp)
    | client => exact List.filter_eq_nil_iff.mp keys.2 _ member (by simp)
  have empty : errorSummary s none = [] := by
    rw [errorSummary_eq, counts]
    rfl
  rw [attributedSummary, AttributeFaultInput.validate, dif_neg (by simp [empty])]
  exact not_returns_error _

/-- A span votes for a service, or for a call with both of its ends. -/
theorem voteOf_shape (s : FixtureStore) (r : TraceRow) :
    (∃ service, service ≠ "" ∧ voteOf s r = (.service, service, "", "")) ∨
      ∃ caller callee, caller ≠ "" ∧ callee ≠ "" ∧ voteOf s r = (.edge, "", caller, callee) := by
  have named := r.named.2.2.1
  have callee : (Tools.given (s.calleeOf r)).getD "unknown" ≠ "" := by
    cases found : Tools.given (s.calleeOf r) with
    | none => simp
    | some name => simpa using (Option.mem_filter_iff.mp found).2
  unfold voteOf
  split
  · simp only []
    split
    · exact .inl ⟨_, callee, rfl⟩
    · exact .inr ⟨_, _, named, callee, rfl⟩
  · exact .inl ⟨_, named, rfl⟩

omit [LowerCase] in
theorem leaves_nonempty (erred : s.spans.filter isError ≠ []) : leaves s ≠ [] := by
  obtain ⟨r, member⟩ := List.exists_mem_of_ne_nil _ erred
  have inErring : r ∈ s.spans.filter (erring s) := by
    refine List.mem_filter.mpr ⟨List.mem_of_mem_filter member, ?_⟩
    exact decide_eq_true (List.mem_map_of_mem member)
  unfold leaves
  simp only []
  split
  · exact List.ne_nil_of_mem inErring
  · rename_i found
    intro none
    exact found (by rw [none]; rfl)

omit [LowerCase] in
theorem deepest_nonempty (erred : s.spans.filter isError ≠ []) : deepest s ≠ [] := by
  have depths : (leaves s).map (depth s.spans) ≠ [] := by
    simpa using leaves_nonempty erred
  obtain ⟨most, found⟩ := Option.ne_none_iff_exists'.mp (mt List.max?_eq_none_iff.mp depths)
  obtain ⟨r, member, atMost⟩ := List.mem_map.mp (List.max?_eq_some_iff.mp found).1
  refine List.ne_nil_of_mem (a := r) (List.mem_filter.mpr ⟨member, ?_⟩)
  simp [maxDepth, found, atMost]

variable [StrRepr]

theorem errorOrigin_clean (clean : s.spans.filter isError = []) :
    (errorOrigin s).classification = .unknown := by
  simp [errorOrigin, clean, minBy_eq_none.mpr]

/-- The origin is what most of the deepest error spans vote for. -/
theorem errorOrigin_eq (erred : s.spans.filter isError ≠ []) :
    ∃ vote, Leads ((deepest s).map (voteOf s)) vote ∧
      (errorOrigin s).classification = vote.1 ∧
      (errorOrigin s).service = Tools.given (some vote.2.1) ∧
      (errorOrigin s).caller = Tools.given (some vote.2.2.1) ∧
      (errorOrigin s).callee = Tools.given (some vote.2.2.2) := by
  have votes : (deepest s).map (voteOf s) ≠ [] := by simpa using deepest_nonempty erred
  obtain ⟨vote, leads⟩ := exists_leads votes
  refine ⟨vote, leads, ?_⟩
  have common : mostCommon (tally ((deepest s).map (voteOf s))) = some vote := by
    rw [mostCommon_tally, mode_eq_some_iff]
    exact leads
  obtain ⟨first, earliest⟩ : ∃ first, minBy traceOrder (s.spans.filter isError) = some first :=
    Option.ne_none_iff_exists'.mp (mt minBy_eq_none.mp erred)
  obtain ⟨sample, rest, frontier⟩ := List.exists_cons_of_ne_nil (deepest_nonempty erred)
  obtain ⟨kind, service, caller, callee⟩ := vote
  simp only [errorOrigin, earliest, common]
  simp [frontier]

theorem errorOrigin_shape (erred : s.spans.filter isError ≠ []) :
    (∃ service, Leads ((deepest s).map (voteOf s)) (.service, service, "", "") ∧
      (errorOrigin s).classification = .service ∧ (errorOrigin s).service = some service) ∨
    ∃ caller callee, Leads ((deepest s).map (voteOf s)) (.edge, "", caller, callee) ∧
      (errorOrigin s).classification = .edge ∧ (errorOrigin s).caller = some caller ∧
      (errorOrigin s).callee = some callee := by
  obtain ⟨vote, leads, kind, service, caller, callee⟩ := errorOrigin_eq erred
  obtain ⟨r, -, cast⟩ := List.mem_map.mp leads.met
  rcases voteOf_shape s r with ⟨name, filled, shape⟩ | ⟨c, e, named, filled, shape⟩
  · rw [cast] at shape
    subst shape
    exact .inl ⟨name, leads, kind, service.trans (given_of_ne filled)⟩
  · rw [cast] at shape
    subst shape
    exact .inr ⟨c, e, leads, kind, caller.trans (given_of_ne named),
      callee.trans (given_of_ne filled)⟩

/-- The attribution of the summary is the origin found in the traces. -/
def PathsAgree (s : FixtureStore) : Prop :=
  (errorOrigin s).classification ≠ .unknown →
    ∃ a, attributedSummary s = .ok a ∧ a.kind = (errorOrigin s).classification ∧
      (a.kind = .service → a.service = (errorOrigin s).service) ∧
      (a.kind = .edge → a.caller = (errorOrigin s).caller ∧ a.callee = (errorOrigin s).callee)

/-- Nothing errs, or the service with the most erring server spans leads among the votes
of the deepest error spans, or no server span errs and the call with the most erring
client spans leads among them, to a callee that is known. -/
inductive Aligned (s : FixtureStore) : Prop
  | clean (none : s.spans.filter isError = [])
  | service (name : String) (spans : Leads (serverErring s) name)
      (votes : Leads ((deepest s).map (voteOf s)) (.service, name, "", ""))
  | edge (caller callee : String) (servers : serverErring s = [])
      (spans : Leads (callsErring s) (caller, some callee))
      (votes : Leads ((deepest s).map (voteOf s)) (.edge, "", caller, callee))

theorem aligned_of_agree (agree : PathsAgree s) : Aligned s := by
  by_cases clean : s.spans.filter isError = []
  · exact .clean clean
  rcases errorOrigin_shape clean with
    ⟨service, votes, kind, named⟩ | ⟨caller, callee, votes, kind, calls, called⟩
  · obtain ⟨a, returned, same, sameService, -⟩ := agree (by simp [kind])
    have isService := same.trans kind
    by_cases servers : serverErring s = []
    · by_cases clients : callsErring s = []
      · exact absurd ⟨a, returned⟩ (not_attributed servers clients)
      · obtain ⟨call, most⟩ := exists_leads clients
        obtain ⟨b, returned', isEdge, -⟩ := attributed_edge servers most
        cases Except.ok.inj (returned.symm.trans returned')
        exact nomatch isService.symm.trans isEdge
    · obtain ⟨name, most⟩ := exists_leads servers
      obtain ⟨b, returned', -, attributed⟩ := attributed_service most
      cases Except.ok.inj (returned.symm.trans returned')
      have same := attributed.symm.trans ((sameService isService).trans named)
      rw [← Option.some.inj same] at votes
      exact .service name most votes
  · obtain ⟨a, returned, same, -, sameEdge⟩ := agree (by simp [kind])
    have isEdge := same.trans kind
    by_cases servers : serverErring s = []
    · by_cases clients : callsErring s = []
      · exact absurd ⟨a, returned⟩ (not_attributed servers clients)
      · obtain ⟨⟨from_, to_⟩, most⟩ := exists_leads clients
        obtain ⟨b, returned', -, callerIs, calleeIs⟩ := attributed_edge servers most
        cases Except.ok.inj (returned.symm.trans returned')
        have sameCaller := callerIs.symm.trans ((sameEdge isEdge).1.trans calls)
        have sameCallee := calleeIs.symm.trans ((sameEdge isEdge).2.trans called)
        rw [Option.some.inj sameCaller, sameCallee] at most
        exact .edge caller callee servers most votes
    · obtain ⟨name, most⟩ := exists_leads servers
      obtain ⟨b, returned', isService, -⟩ := attributed_service most
      cases Except.ok.inj (returned.symm.trans returned')
      exact nomatch isService.symm.trans isEdge

theorem agree_of_aligned (aligned : Aligned s) : PathsAgree s := by
  intro known
  have erred : s.spans.filter isError ≠ [] := fun clean => known (errorOrigin_clean clean)
  have shape := errorOrigin_shape erred
  cases aligned with
  | clean none => exact absurd none erred
  | service name spans votes =>
    obtain ⟨a, returned, isService, attributed⟩ := attributed_service spans
    rcases shape with ⟨service, leads, kind, named⟩ | ⟨_, _, leads, -⟩
    · cases votes.unique leads
      refine ⟨a, returned, isService.trans kind.symm, fun _ => attributed.trans named.symm, ?_⟩
      intro isEdge
      exact nomatch isService.symm.trans isEdge
    · exact nomatch votes.unique leads
  | edge caller callee servers spans votes =>
    obtain ⟨a, returned, isEdge, callerIs, calleeIs⟩ := attributed_edge servers spans
    rcases shape with ⟨_, leads, -⟩ | ⟨_, _, leads, kind, calls, called⟩
    · exact nomatch votes.unique leads
    · cases votes.unique leads
      refine ⟨a, returned, isEdge.trans kind.symm, ?_, fun _ => ?_⟩
      · intro isService
        exact nomatch isService.symm.trans isEdge
      · exact ⟨callerIs.trans calls.symm, calleeIs.trans called.symm⟩

end

section Sample

@[reducible] def asciiLowerCase : LowerCase :=
  ⟨fun text => String.ofList (text.toList.map Char.toLower)⟩

theorem toUpper_of_isUpper {c : Char} (upper : c.isUpper = true) : c.toUpper = c := by
  have bounds : c.val ≥ 'A'.val ∧ c.val ≤ 'Z'.val := of_decide_eq_true upper
  unfold Char.toUpper
  rw [dif_neg]
  rintro ⟨least, -⟩
  exact absurd (UInt32.le_trans least bounds.2) (by decide)

@[reducible] def asciiUpperCase : UpperCase where
  upper text := String.ofList (text.toList.map Char.toUpper)
  upper_capitals text capitals := by
    rw [List.map_congr_left fun c member => toUpper_of_isUpper (capitals c member), List.map_id',
      String.ofList_toList]

@[reducible] def quoted : StrRepr := ⟨fun text => "'" ++ text ++ "'"⟩

attribute [local instance] asciiLowerCase asciiUpperCase quoted

def sampleSpan (spanId parent service status kind : String)
    (named : spanId ≠ "" ∧ service ≠ "" ∧ status ≠ "") : TraceRow where
  traceId := "t1"
  spanId := spanId
  parentSpanId := some parent
  time := 0
  service := service
  operation := "oteldemo.PaymentService/Charge"
  durationMs := 1
  status := status
  attributes := [("span.kind", .str kind)]
  named := ⟨by decide, named.1, named.2.1, by decide, named.2.2⟩

/-- A checkout that fails because its call to payment fails on the way back. -/
def failedCall : FixtureStore := .init
  { traces :=
    [sampleSpan "s1" "" "checkout" "ERROR" "server" (by decide),
      sampleSpan "s2" "s1" "checkout" "ERROR" "client" (by decide),
      sampleSpan "s3" "s2" "payment" "OK" "server" (by decide)] }

/-- The traces blame the call to payment, the summary of the same spans blames checkout. -/
theorem caller_blamed_for_call : ¬ ∀ s : FixtureStore, PathsAgree s := by
  intro agree
  have leaf : (leaves failedCall).map (voteOf failedCall) = [(.edge, "", "checkout", "payment")] := by
    decide +kernel
  cases aligned_of_agree (agree failedCall) with
  | clean none => exact absurd none (by decide +kernel)
  | service name spans votes =>
    obtain ⟨r, member, cast⟩ := List.mem_map.mp votes.met
    have voted := List.mem_map_of_mem (f := voteOf failedCall) (List.mem_of_mem_filter member)
    rw [leaf, cast] at voted
    cases List.mem_singleton.mp voted
  | edge caller callee servers =>
    have erring : serverErring failedCall = ["checkout"] := by decide +kernel
    exact nomatch erring.symm.trans servers

end Sample

end Sentinel.Tools
