import Sentinel.LiveLab.MachineProofs
import Sentinel.LiveLab.Registry

/-! One run in flight. A run that has ended stays so and calls nothing, and between the
scan of the registry and the start of the new thread no other request gets the lock;
so the faults of two runs never overlap. -/
namespace Sentinel.LiveLab
open Python Actions Transition

/-! ### Run threads -/

theorem newFaults_live {config config' : Config} {s s' : System} {notes : List Note}
    (grown : s'.live.log = s.live.log ++ notes) :
    (RunBody.live config s).newFaults (.live config' s') = notes.filter Note.isFault := by
  rw [RunBody.newFaults, grown, List.drop_left]

theorem ended_live {config : Config} {s : System} :
    (RunBody.live config s).ended = true ↔ s.pc = .ended := by
  rw [RunBody.ended]
  cases s.pc <;> simp

theorem ended_replay {s : ReplayState} : (RunBody.replay s).ended = true ↔ s.pc = .ended := by
  rw [RunBody.ended]
  cases s.pc <;> simp

section
variable [FloatRepr] [FloatReader] [Hashlib]

theorem body_step {body body' : RunBody} {call : ThreadCall} (step : body.next call = some body') :
    (∃ config s l s', body = .live config s ∧ call = .live l ∧ s.next config l = some s' ∧
      body' = .live config s') ∨
    ∃ s c s', body = .replay s ∧ call = .replay c ∧ s.next c = some s' ∧ body' = .replay s' := by
  cases body with
  | live config s =>
    cases call with
    | live l =>
      obtain ⟨s', taken, rfl⟩ := Option.map_eq_some_iff.mp step
      exact .inl ⟨config, s, l, s', rfl, rfl, taken, rfl⟩
    | replay c => cases step
  | replay s =>
    cases call with
    | live l => cases step
    | replay c =>
      obtain ⟨s', taken, rfl⟩ := Option.map_eq_some_iff.mp step
      exact .inr ⟨s, c, s', rfl, rfl, taken, rfl⟩

omit [FloatReader] in
/-- The log of a live run grows; its request threads add no faults. -/
theorem live_log {config : Config} {s s' : System} {l : Party} (step : s.next config l = some s') :
    ∃ notes, s'.live.log = s.live.log ++ notes ∧
      (l ≠ .run → s'.pc = s.pc ∧ notes.filter Note.isFault = []) := by
  rcases step_cases step with ⟨rfl, -, rfl⟩ | ⟨i, click, live, click', rfl, -, taken, rfl⟩
  · obtain ⟨notes, same, -⟩ := (Pc.next_framed config s.pc s.live s.live.steps).log
    exact ⟨notes, same, fun other => absurd rfl other⟩
  · rcases click_cases taken with ⟨rfl, -, -⟩ | ⟨d, -, -, rfl⟩ | ⟨d, -, -, rfl⟩ | ⟨-, -, rfl⟩ |
      ⟨-, -, rfl⟩
    · exact ⟨[], (List.append_nil _).symm, fun _ => ⟨rfl, rfl⟩⟩
    · exact ⟨[.decided d], rfl, fun _ => ⟨rfl, rfl⟩⟩
    · exact ⟨[.accepted d], rfl, fun _ => ⟨rfl, rfl⟩⟩
    · exact ⟨[], (List.append_nil _).symm, fun _ => ⟨rfl, rfl⟩⟩
    · exact ⟨[], (List.append_nil _).symm, fun _ => ⟨rfl, rfl⟩⟩

/-- Without a step of its own thread a run calls nothing, and it ends by none. -/
theorem foreign_step {body body' : RunBody} {call : ThreadCall} (foreign : call.own = false)
    (step : body.next call = some body') :
    body.newFaults body' = [] ∧ body'.ended = body.ended := by
  rcases body_step step with ⟨config, s, l, s', rfl, rfl, taken, rfl⟩ | ⟨s, c, s', rfl, rfl, taken, rfl⟩
  · obtain ⟨notes, grown, quiet⟩ := live_log taken
    obtain ⟨same, none⟩ := quiet (by rintro rfl; cases foreign)
    exact ⟨(newFaults_live grown).trans none, by rw [RunBody.ended, same]; rfl⟩
  · refine ⟨rfl, ?_⟩
    cases c with
    | run nowMs => cases foreign
    | abort | subscribe =>
      cases taken
      rfl
    | get i =>
      obtain ⟨bus, -, rfl⟩ := Option.map_eq_some_iff.mp taken
      rfl

/-- The thread of an ended run takes no step. -/
theorem ended_next {body : RunBody} {call : ThreadCall} (ended : body.ended = true)
    (own : call.own = true) : body.next call = none := by
  cases body with
  | live config s =>
    rcases call with (_ | i) | c
    · simp [RunBody.next, System.next, ended_live.mp ended]
    · cases own
    · rfl
  | replay s =>
    rcases call with l | (nowMs | _ | after | i)
    · rfl
    · simp [RunBody.next, ReplayState.next, ReplayState.run, ended_replay.mp ended]
    all_goals cases own

/-- A thread that is not active stays so, and its steps call nothing. -/
theorem idle_step {t : RunThread} {call : ThreadCall} {body : RunBody}
    (idle : t.isActive = false) (allowed : call.own = true → t.started = true)
    (step : t.body.next call = some body) :
    ({ t with body } : RunThread).isActive = false ∧ t.body.newFaults body = [] := by
  cases own : call.own with
  | false =>
    obtain ⟨quiet, same⟩ := foreign_step own step
    refine ⟨?_, quiet⟩
    rw [RunThread.isActive, same]
    exact idle
  | true =>
    have ended : t.body.ended = true := by
      rw [RunThread.isActive, allowed own, Bool.true_and, Bool.not_eq_false'] at idle
      exact idle
    rw [ended_next ended own] at step
    cases step

end

/-! ### The registry -/

/-- The thread of run `i` is alive. -/
def Registry.Active (s : Registry) (i : ℕ) : Prop := ∃ t, s.threads[i]? = some t ∧ t.isActive = true

/-- The request is inside the lock. -/
def Starting.holds : Starting → Bool
  | .scanning .. | .building _ | .registering .. | .launching _ => true
  | .waiting _ | .answered _ => false

/-- What the holder of the lock has made sure of. -/
def Starting.Clears (s : Registry) : Starting → Prop
  | .scanning _ rest => ∀ i, s.Active i → i ∈ rest
  | .building _ => ∀ i, ¬ s.Active i
  | .registering _ i => (∀ k, ¬ s.Active k) ∧ i + 1 = s.threads.length
  | .launching i => (∀ k, ¬ s.Active k) ∧ i + 1 = s.threads.length ∧ i ∈ s.runs.values
  | .waiting _ | .answered _ => True

structure Flying (s : Registry) : Prop where
  single : ∀ i k, s.Active i → s.Active k → i = k
  known : ∀ i, s.Active i → i ∈ s.runs.values
  newest : ∀ i, s.Active i → ∀ f ∈ s.faults, f.1 ≤ i
  created : ∀ f ∈ s.faults, f.1 < s.threads.length
  ordered : s.faults.Pairwise fun f g => f.1 ≤ g.1
  inside : ∀ j starting, s.requests[j]? = some starting → starting.holds = true →
    s.lock = some j ∧ starting.Clears s

variable {s s' : Registry} {j : ℕ}

/-- One request goes on; the others are outside of the lock. -/
theorem Flying.inside_set (flying : Flying s) {lock : Option ℕ} {starting : Starting}
    (others : ∀ k ≠ j, s.lock ≠ some k) (new : starting.holds = true → lock = some j ∧ starting.Clears s') :
    ∀ k st, (s.requests.set j starting)[k]? = some st → st.holds = true →
      lock = some k ∧ st.Clears s' := by
  intro k st found holds
  by_cases same : j = k
  · subst same
    obtain ⟨inside, rfl⟩ := List.getElem?_eq_some_iff.mp found
    rw [List.getElem_set_self] at holds ⊢
    exact new holds
  · rw [List.getElem?_set_ne same] at found
    exact absurd (flying.inside k st found holds).1 (others k fun h => same h.symm)

/-- Time passes. -/
theorem flying_tick (flying : Flying s) (steps : ℕ) : Flying { s with steps } := by
  refine ⟨flying.single, flying.known, flying.newest, flying.created, flying.ordered,
    fun j st found holds => ?_⟩
  obtain ⟨held, clears⟩ := flying.inside j st found holds
  refine ⟨held, ?_⟩
  cases st <;> exact clears

theorem flying_start : Flying {} := by
  refine ⟨?_, ?_, ?_, ?_, .nil, ?_⟩ <;> simp [Registry.Active]

theorem flying_request (flying : Flying s) (request : StartRequest) :
    Flying { s with requests := s.requests ++ [.waiting request] } := by
  refine ⟨flying.single, flying.known, flying.newest, flying.created, flying.ordered, ?_⟩
  intro k st found holds
  rcases Nat.lt_or_ge k s.requests.length with old | new
  · rw [List.getElem?_append_left old] at found
    exact flying.inside k st found holds
  · rw [List.getElem?_append_right new] at found
    cases List.mem_singleton.mp (List.mem_of_getElem? found)
    cases holds

theorem flying_acquire (flying : Flying s) (free : s.lock = none) (request : StartRequest) :
    Flying { s with lock := some j, requests := s.requests.set j (.scanning request s.runs.values) } :=
  ⟨flying.single, flying.known, flying.newest, flying.created, flying.ordered,
    flying.inside_set (fun k _ held => by simp [free] at held) fun _ => ⟨rfl, flying.known⟩⟩

theorem Flying.others (held : s.lock = some j) : ∀ k ≠ j, s.lock ≠ some k :=
  fun _ other same => other (Option.some.inj (same.symm.trans held))

/-- The holder answers without having started a run. -/
theorem flying_answer (flying : Flying s) (held : s.lock = some j) (answer : Answer) :
    Flying (s.answer j answer) :=
  ⟨flying.single, flying.known, flying.newest, flying.created, flying.ordered,
    flying.inside_set (Flying.others held) nofun⟩

/-- The holder goes on to a state that it has made sure of. -/
theorem flying_goto (flying : Flying s) (held : s.lock = some j) {starting : Starting}
    (clears : starting.Clears s) : Flying { s with requests := s.requests.set j starting } :=
  ⟨flying.single, flying.known, flying.newest, flying.created, flying.ordered,
    flying.inside_set (Flying.others held) fun _ => ⟨held, by cases starting <;> exact clears⟩⟩

/-- A built run is not active before its start. -/
theorem active_build {body : RunBody} {i : ℕ}
    (active : Registry.Active { s with threads := s.threads ++ [{ body }] } i) : s.Active i := by
  obtain ⟨t, found, alive⟩ := active
  rcases Nat.lt_or_ge i s.threads.length with old | new
  · rw [List.getElem?_append_left old] at found
    exact ⟨t, found, alive⟩
  · rw [List.getElem?_append_right new] at found
    cases List.mem_singleton.mp (List.mem_of_getElem? found)
    cases alive

theorem active_launch {i k : ℕ} (active : Registry.Active
    { s with threads := s.threads.modify i fun t => { t with started := true } } k) :
    k = i ∨ s.Active k := by
  obtain ⟨t, found, alive⟩ := active
  by_cases same : i = k
  · exact .inl same.symm
  · have before : s.threads[k]? = some t := by
      rw [← found]
      exact (List.getElem?_modify_ne _ _ same).symm
    exact .inr ⟨t, before, alive⟩

theorem mem_values_set (d : Dict String ℕ) (k : String) (i : ℕ) : i ∈ (d.set k i).values := by
  have found : (d.set k i).get? k = some i := by simp
  exact List.mem_map.mpr ⟨_, (Dict.mem_items_iff _).mpr found, rfl⟩

theorem flying_serve {env : RegistryEnv} (flying : Flying s) (held : s.lock = some j) {starting : Starting}
    (here : s.requests[j]? = some starting) {clicks : List Click}
    (step : s.serve env j clicks starting = some s') : Flying s' := by
  have clears := fun holds => (flying.inside j starting here holds).2
  cases starting with
  | scanning request rest =>
    specialize clears rfl
    cases rest with
    | nil =>
      cases step
      exact flying_goto flying held fun i active => by cases clears i active
    | cons i rest =>
      simp only [Registry.serve] at step
      split at step
      · cases step
        exact flying_answer flying held _
      · rename_i idle
        cases step
        refine flying_goto flying held fun k active => ?_
        rcases List.mem_cons.mp (clears k active) with rfl | later
        · obtain ⟨t, found, alive⟩ := active
          simp [found, alive] at idle
        · exact later
  | building request =>
    specialize clears rfl
    simp only [Registry.serve] at step
    split at step
    · cases step
      exact flying_answer flying held _
    · rename_i runId body built
      cases step
      have idle : ∀ k, ¬ Registry.Active { s with threads := s.threads ++ [{ body }] } k :=
        fun k active => clears k (active_build active)
      refine ⟨fun i _ active => absurd active (idle i), fun i active => absurd active (idle i),
        fun i active => absurd active (idle i), fun f member => ?_, flying.ordered,
        flying.inside_set (Flying.others held) fun _ => ⟨held, idle, ?_⟩⟩
      · rw [List.length_append]
        exact (flying.created f member).trans_le (Nat.le_add_right _ _)
      · rw [List.length_append]
        rfl
  | registering runId i =>
    obtain ⟨idle, latest⟩ := clears rfl
    cases step
    refine ⟨flying.single, fun k active => absurd active (idle k), flying.newest, flying.created,
      flying.ordered, flying.inside_set (Flying.others held) fun _ => ⟨held, idle, latest, ?_⟩⟩
    exact mem_values_set _ _ _
  | launching i =>
    obtain ⟨idle, latest, registered⟩ := clears rfl
    cases step
    have only : ∀ k, Registry.Active { s.answer j (.started i) with
        threads := s.threads.modify i fun t => { t with started := true } } k → k = i :=
      fun k active => (active_launch active).resolve_right (idle k)
    refine ⟨fun k l active active' => (only k active).trans (only l active').symm,
      fun k active => only k active ▸ registered, fun k active f member => ?_, fun f member => ?_,
      flying.ordered, flying.inside_set (Flying.others held) nofun⟩
    · have := flying.created f member
      rw [only k active]
      omega
    · rw [List.length_modify]
      exact flying.created f member
  | waiting | answered => cases step

section
variable [FloatRepr] [FloatReader] [Hashlib] {env : RegistryEnv}

theorem active_thread {i k : ℕ} {t : RunThread} (here : s.threads[i]? = some t) {call : ThreadCall}
    (allowed : call.own = true → t.started = true) {body : RunBody}
    (step : t.body.next call = some body) {faults : List (ℕ × Note)}
    (active : Registry.Active { s with threads := s.threads.set i { t with body }, faults } k) :
    s.Active k := by
  obtain ⟨u, found, alive⟩ := active
  by_cases same : i = k
  · subst same
    refine ⟨t, here, ?_⟩
    by_contra idle
    have stays := (idle_step (Bool.not_eq_true _ ▸ idle) allowed step).1
    have inside := (List.getElem?_eq_some_iff.mp here).1
    rw [show (s.threads.set i { t with body })[i]? = some { t with body } by simp [inside]] at found
    cases found
    rw [stays] at alive
    cases alive
  · rw [show (s.threads.set i { t with body })[k]? = s.threads[k]? from List.getElem?_set_ne same]
      at found
    exact ⟨u, found, alive⟩

theorem flying_thread (flying : Flying s) {i : ℕ} {t : RunThread} (here : s.threads[i]? = some t)
    {call : ThreadCall} (allowed : call.own = true → t.started = true) {body : RunBody}
    (step : t.body.next call = some body) :
    Flying { s with
      threads := s.threads.set i { t with body }
      faults := s.faults ++ (t.body.newFaults body).map fun note => (i, note) } := by
  have before : ∀ k, Registry.Active { s with
      threads := s.threads.set i { t with body }
      faults := s.faults ++ (t.body.newFaults body).map fun note => (i, note) } k → s.Active k :=
    fun k => active_thread here allowed step
  have inside := (List.getElem?_eq_some_iff.mp here).1
  -- only an active run calls anything
  have caller : ∀ f ∈ (t.body.newFaults body).map fun note => (i, note), f.1 = i ∧ s.Active i := by
    intro f member
    obtain ⟨note, called, rfl⟩ := List.mem_map.mp member
    refine ⟨rfl, t, here, ?_⟩
    by_contra idle
    rw [(idle_step (Bool.not_eq_true _ ▸ idle) allowed step).2] at called
    cases called
  refine ⟨fun k l one two => flying.single k l (before k one) (before l two),
    fun k active => flying.known k (before k active), fun k active f member => ?_,
    fun f member => ?_, ?_, fun k st found holds => ?_⟩
  · rcases List.mem_append.mp member with old | new
    · exact flying.newest k (before k active) f old
    · obtain ⟨at_i, calls⟩ := caller f new
      rw [at_i, flying.single i k calls (before k active)]
  · rw [List.length_set]
    rcases List.mem_append.mp member with old | new
    · exact flying.created f old
    · exact (caller f new).1 ▸ inside
  · rw [List.pairwise_append]
    refine ⟨flying.ordered, ?_, fun f old g new => ?_⟩
    · exact List.pairwise_map.mpr (List.pairwise_of_forall fun _ _ => le_rfl)
    · obtain ⟨at_i, calls⟩ := caller g new
      rw [at_i]
      exact flying.newest i calls f old
  · obtain ⟨held, clears⟩ := flying.inside k st found holds
    refine ⟨held, ?_⟩
    cases st with
    | scanning request rest => exact fun l active => clears l (before l active)
    | building request => exact fun l active => clears l (before l active)
    | registering runId l =>
      exact ⟨fun m active => clears.1 m (before m active), by rw [List.length_set]; exact clears.2⟩
    | launching l =>
      exact ⟨fun m active => clears.1 m (before m active), by rw [List.length_set]; exact clears.2.1,
        clears.2.2⟩
    | waiting | answered => trivial

theorem flying_step {call : RegistryCall} (flying : Flying s)
    (step : RegistryStep env s call s') : Flying s' := by
  obtain ⟨next, taken, rfl⟩ := Option.map_eq_some_iff.mp step
  suffices kept : Flying next from flying_tick kept _
  cases call with
  | request request =>
    cases taken
    exact flying_request flying request
  | acquire j =>
    simp only [Registry.next] at taken
    split at taken
    · rename_i free _
      cases taken
      exact flying_acquire flying free _
    · cases taken
  | serve j clicks =>
    simp only [Registry.next] at taken
    split at taken
    · rename_i starting here
      split at taken
      · rename_i held
        exact flying_serve flying held here taken
      · cases taken
    · cases taken
  | thread i call =>
    simp only [Registry.next] at taken
    split at taken
    · rename_i t here
      split at taken
      · cases taken
      · rename_i allowed
        obtain ⟨body, went, rfl⟩ := Option.map_eq_some_iff.mp taken
        refine flying_thread flying here (fun own => ?_) went
        simpa [own] using allowed
    · cases taken

/-! ### Refused requests -/

/-- The request that takes the step. -/
def RegistryCall.taker : RegistryCall → Option ℕ
  | .acquire j | .serve j _ => some j
  | .request _ | .thread .. => none

/-- The request has registered its run, and will answer with it. -/
def Starting.launched : Starting → Bool
  | .launching _ | .answered (.started _) => true
  | _ => false

omit [FloatRepr] [FloatReader] [Hashlib] in
/-- The holder's request goes on; only the registration changes `_runs`. -/
theorem serve_cases {clicks : List Click} {starting : Starting}
    (step : s.serve env j clicks starting = some s') :
    ∃ later, s'.requests = s.requests.set j later ∧
      (s'.runs = s.runs ∨ later.launched = true) ∧
      (starting.launched = true → later.launched = true) := by
  cases starting with
  | scanning request rest =>
    cases rest with
    | nil =>
      cases step
      exact ⟨_, rfl, .inl rfl, nofun⟩
    | cons i rest =>
      simp only [Registry.serve] at step
      split at step <;> cases step <;> exact ⟨_, rfl, .inl rfl, nofun⟩
  | building request =>
    simp only [Registry.serve] at step
    split at step <;> cases step <;> exact ⟨_, rfl, .inl rfl, nofun⟩
  | registering runId i =>
    cases step
    exact ⟨_, rfl, .inr rfl, nofun⟩
  | launching i =>
    cases step
    exact ⟨_, rfl, .inl rfl, fun _ => rfl⟩
  | waiting | answered => cases step

/-- A step goes on with the request that takes it, and with no other. -/
theorem registry_cases {call : RegistryCall} (step : RegistryStep env s call s') :
    (call.taker = none ∧ s'.runs = s.runs ∧
      ∀ (j : ℕ) (st : Starting), s.requests[j]? = some st → s'.requests[j]? = some st) ∨
    ∃ (j : ℕ) (starting later : Starting), call.taker = some j ∧ s.requests[j]? = some starting ∧
      s'.requests = s.requests.set j later ∧ (s'.runs = s.runs ∨ later.launched = true) ∧
      (starting.launched = true → later.launched = true) := by
  obtain ⟨next, taken, rfl⟩ := Option.map_eq_some_iff.mp step
  cases call with
  | request request =>
    cases taken
    refine .inl ⟨rfl, rfl, fun j st found => ?_⟩
    have inside := (List.getElem?_eq_some_iff.mp found).1
    exact (List.getElem?_append_left inside).trans found
  | acquire j =>
    simp only [Registry.next] at taken
    split at taken
    · rename_i request _ waiting
      cases taken
      exact .inr ⟨j, _, _, rfl, waiting, rfl, .inl rfl, nofun⟩
    · cases taken
  | serve j clicks =>
    simp only [Registry.next] at taken
    split at taken
    · rename_i starting here
      split at taken
      · obtain ⟨later, went, runs, launched⟩ := serve_cases taken
        exact .inr ⟨j, starting, later, rfl, here, went, runs, launched⟩
      · cases taken
    · cases taken
  | thread i call =>
    simp only [Registry.next] at taken
    split at taken
    · split at taken
      · cases taken
      · obtain ⟨body, -, rfl⟩ := Option.map_eq_some_iff.mp taken
        exact .inl ⟨rfl, rfl, fun _ _ found => found⟩
    · cases taken

/-- Past the registration a request will answer with its run. -/
theorem launched_run {calls : List RegistryCall} {starting : Starting}
    (run : Transition.Run (RegistryStep env) s calls s')
    (here : s.requests[j]? = some starting) (launched : starting.launched = true) :
    ∃ later, s'.requests[j]? = some later ∧ later.launched = true := by
  induction run generalizing starting with
  | refl => exact ⟨starting, here, launched⟩
  | next step _ ih =>
    rcases registry_cases step with ⟨-, -, kept⟩ | ⟨k, before, later, -, found, went, -, stays⟩
    · exact ih (kept j starting here) launched
    · by_cases same : k = j
      · subst same
        cases here.symm.trans found
        have inside := (List.getElem?_eq_some_iff.mp here).1
        exact ih (by rw [went, List.getElem?_set_self inside]) (stays launched)
      · exact ih (by rw [went, List.getElem?_set_ne same, here]) launched

/-! ### The history of faults -/

/-- The history holds the calls of each live run as its log does. -/
def Kept (s : Registry) : Prop :=
  ∀ (i : ℕ) (t : RunThread) config system, s.threads[i]? = some t → t.body = .live config system →
    (s.faults.filter fun f => f.1 = i).map Prod.snd = system.live.log.filter Note.isFault

omit [FloatRepr] [FloatReader] [Hashlib] in
/-- Nothing was called yet by a run that is being built. -/
theorem Flying.uncalled (flying : Flying s) :
    s.faults.filter (fun f => f.1 = s.threads.length) = [] := by
  rw [List.filter_eq_nil_iff]
  intro f member
  have := flying.created f member
  rw [decide_eq_true_eq]
  omega

omit [FloatRepr] [FloatReader] [Hashlib] in
/-- A live run is built with an empty log. -/
theorem build_fresh {n : ℕ} {clicks : List Click} {request : StartRequest} {runId : String}
    {body : RunBody} (built : build env n clicks request = .ok (runId, body)) (config : Config)
    (system : System) (live : body = .live config system) : system.live.log = [] := by
  subst live
  cases request with
  | live scenarioId scenario preset =>
    simp only [build, bind, Except.bind] at built
    split at built
    · cases built
    · split at built
      · cases built
      · cases built
        rfl
  | replay sourceRunId =>
    simp only [build, bind, Except.bind] at built
    split at built
    · cases built
    · split at built <;> cases built

omit [FloatRepr] [FloatReader] [Hashlib] in
theorem launch_body {threads : List RunThread} {i k : ℕ} {t : RunThread}
    (found : (threads.modify i fun t => { t with started := true })[k]? = some t) :
    ∃ u, threads[k]? = some u ∧ u.body = t.body := by
  rw [List.getElem?_modify] at found
  obtain ⟨u, before, rfl⟩ := Option.map_eq_some_iff.mp found
  refine ⟨u, before, ?_⟩
  split <;> rfl

omit [FloatRepr] [FloatReader] [Hashlib] in
theorem kept_serve {clicks : List Click} {starting : Starting} (kept : Kept s) (flying : Flying s)
    (step : s.serve env j clicks starting = some s') : Kept s' := by
  cases starting with
  | scanning request rest =>
    cases rest with
    | nil =>
      cases step
      exact kept
    | cons i rest =>
      simp only [Registry.serve] at step
      split at step <;> cases step <;> exact kept
  | building request =>
    simp only [Registry.serve] at step
    split at step <;> cases step
    · exact kept
    · rename_i runId body built
      intro i t config system found live
      rcases Nat.lt_or_ge i s.threads.length with old | new
      · rw [List.getElem?_append_left old] at found
        exact kept i t config system found live
      · rw [List.getElem?_append_right new] at found
        have at_i : i = s.threads.length := by
          have := (List.getElem?_eq_some_iff.mp found).1
          rw [List.length_singleton] at this
          omega
        cases List.mem_singleton.mp (List.mem_of_getElem? found)
        rw [at_i, flying.uncalled, build_fresh built config system live]
        rfl
  | registering runId i =>
    cases step
    exact kept
  | launching i =>
    cases step
    intro k t config system found live
    obtain ⟨u, before, same⟩ := launch_body found
    exact kept k u config system before (same.trans live)
  | waiting | answered => cases step

theorem kept_thread (kept : Kept s) {i : ℕ} {t : RunThread} (here : s.threads[i]? = some t)
    {call : ThreadCall} {body : RunBody} (step : t.body.next call = some body) :
    Kept { s with
      threads := s.threads.set i { t with body }
      faults := s.faults ++ (t.body.newFaults body).map fun note => (i, note) } := by
  intro k u config system found live
  have inside := (List.getElem?_eq_some_iff.mp here).1
  simp only [List.filter_append, List.map_append]
  by_cases same : i = k
  · subst same
    rw [List.getElem?_set_self inside] at found
    cases found
    obtain rfl : body = .live config system := live
    rcases body_step step with ⟨config', s₁, l, s₂, before, -, taken, after⟩ | ⟨_, _, _, -, -, -, after⟩
    · cases after
      obtain ⟨notes, grown, -⟩ := live_log taken
      rw [kept i t config s₁ here before, before, newFaults_live grown, grown, List.filter_append]
      simp [List.filter_map, Function.comp_def]
    · cases after
  · rw [List.getElem?_set_ne same] at found
    rw [kept k u config system found live]
    simp [List.filter_map, Function.comp_def, same]

theorem kept_step {call : RegistryCall} (kept : Kept s) (flying : Flying s)
    (step : RegistryStep env s call s') : Kept s' := by
  obtain ⟨next, taken, rfl⟩ := Option.map_eq_some_iff.mp step
  suffices still : Kept next from still
  cases call with
  | request request =>
    cases taken
    exact kept
  | acquire j =>
    simp only [Registry.next] at taken
    split at taken <;> cases taken
    exact kept
  | serve j clicks =>
    simp only [Registry.next] at taken
    split at taken
    · split at taken
      · exact kept_serve kept flying taken
      · cases taken
    · cases taken
  | thread i call =>
    simp only [Registry.next] at taken
    split at taken
    · rename_i t here
      split at taken
      · cases taken
      · obtain ⟨body, went, rfl⟩ := Option.map_eq_some_iff.mp taken
        exact kept_thread kept here went
    · cases taken

/-- However requests and run threads interleave: at most one run is active, the steps
of a refused request leave the registry's runs alone, and no call of inject() or
clear() of a run comes after one of a later run. -/
theorem single_flight {calls : List RegistryCall}
    (run : Transition.Run (RegistryStep env) {} calls s) :
    (∀ i k, s.Active i → s.Active k → i = k) ∧
      (∀ s₁ call s₂ later j answer, RegistryStep env s₁ call s₂ → call.taker = some j →
        Transition.Run (RegistryStep env) s₂ later s →
        s.requests[j]? = some (.answered answer) → (∀ i, answer ≠ .started i) →
        s₂.runs = s₁.runs) ∧
      (s.faults.Pairwise fun f g => f.1 ≤ g.1) ∧ Kept s := by
  have both := run.invariant (fun s => Flying s ∧ Kept s)
    (fun _ _ _ inv step => ⟨flying_step inv.1 step, kept_step inv.2 inv.1 step⟩)
    ⟨flying_start, by simp [Kept]⟩
  refine ⟨both.1.single, ?_, both.1.ordered, both.2⟩
  intro s₁ call s₂ later j answer step taker rest answered refused
  rcases registry_cases step with ⟨none, -, -⟩ | ⟨k, _, next, takes, here, went, runs, -⟩
  · rw [none] at taker
    cases taker
  · obtain rfl : k = j := Option.some.inj (takes.symm.trans taker)
    refine runs.resolve_right fun launched => ?_
    have inside := (List.getElem?_eq_some_iff.mp here).1
    have now : s₂.requests[k]? = some next := by rw [went, List.getElem?_set_self inside]
    obtain ⟨final, found, stays⟩ := launched_run rest now launched
    cases found.symm.trans answered
    cases answer with
    | started i => exact refused i rfl
    | refused | raised => cases stays

end

section Sample
attribute [local instance] fractionRepr fractionReader pinnedHashlib

/-- Live runs end at once; their last act is the sweep. -/
def daemonDown : RegistryEnv where
  timeMs n := n
  depsFactory _ _ _ :=
    .ok { calmDeps with daemonUp := fun _ => .error ⟨"RuntimeError", "no daemon", false⟩ }
  liveRun _ _ := .ok ()
  source _ _ := none

def startOrders : StartRequest := .live "orders" calmConfig.scenario .quick

/-- The second of three requests is refused, the third comes after the first run. -/
def threeStarts : List RegistryCall :=
  [.request startOrders, .request startOrders, .request startOrders, .acquire 0] ++
    List.replicate 4 (.serve 0 []) ++ [.acquire 1, .serve 1 []] ++
    List.replicate 7 (.thread 0 (.live .run)) ++ [.acquire 2] ++ List.replicate 5 (.serve 2 []) ++
    List.replicate 7 (.thread 1 (.live .run))

theorem single_flight_two : ∃ s : Registry, s.faults.map Prod.fst = [0, 1] ∧
    (∀ i k, s.Active i → s.Active k → i = k) ∧ s.faults.Pairwise fun f g => f.1 ≤ g.1 := by
  obtain ⟨s, run, reached⟩ := exists_run
    (fun _ _ _ => trivial : ∀ _ _, true = true → True)
    (by decide +kernel : (play (fun (s : Registry) call =>
        (s.next daemonDown call).map fun t => { t with steps := s.steps + 1 }) (fun _ _ => true)
      threeStarts {}).any (fun s => s.faults.map Prod.fst == [0, 1]) = true)
  obtain ⟨single, -, ordered, -⟩ := single_flight run.unguarded
  exact ⟨s, eq_of_beq reached, single, ordered⟩

end Sample

end Sentinel.LiveLab
