import Mathlib.Logic.Relation
import Mathlib.Order.WellFoundedSet
import Sentinel.Python.Exn

/-! The depth-first walk of a forest: each node with its depth, before what lies below it.
The walk takes one frame of the call stack for each level. -/
namespace Graphs
open Python

variable {α : Type}

/-- The nodes below `a` and itself, with their depths; `deep` where the frames run out. -/
def walk (deep : Exn) (kids : α → List α) : ℕ → ℕ → α → Py (List (ℕ × α))
  | 0, _, _ => .error deep
  | frames + 1, depth, a => do
    let below ← (kids a).mapM (walk deep kids frames (depth + 1))
    .ok ((depth, a) :: below.flatten)

/-- A walk from a node depends on what lies below the nodes it meets. -/
theorem walk_congr {deep : Exn} {kids kids' : α → List α} {nodes : List α}
    (same : ∀ a ∈ nodes, kids a = kids' a) (closed : ∀ a ∈ nodes, ∀ b ∈ kids a, b ∈ nodes)
    {frames depth : ℕ} {a : α} (member : a ∈ nodes) :
    walk deep kids frames depth a = walk deep kids' frames depth a := by
  induction frames generalizing depth a with
  | zero => rfl
  | succ frames ih =>
    rw [walk, walk, ← same a member, mapM_congr fun b kid => ih (closed a member b kid)]

/-- What a walk visits: of each node in turn the node, and what lies below it. -/
inductive Visits (kids : α → List α) : ℕ → List α → List (ℕ × α) → Prop where
  | nil (depth : ℕ) : Visits kids depth [] []
  | cons {depth : ℕ} {a : α} {rest : List α} {below later : List (ℕ × α)} :
      Visits kids (depth + 1) (kids a) below → Visits kids depth rest later →
      Visits kids depth (a :: rest) ((depth, a) :: (below ++ later))

/-- One node lies directly below another. -/
def Below (kids : α → List α) (a b : α) : Prop := b ∈ kids a

namespace Visits
variable {kids : α → List α} {depth : ℕ} {tops : List α} {visit : List (ℕ × α)}

theorem unique {visit' : List (ℕ × α)} (visits : Visits kids depth tops visit)
    (visits' : Visits kids depth tops visit') : visit = visit' := by
  induction visits generalizing visit' with
  | nil =>
    cases visits'
    rfl
  | cons _ _ inner outer =>
    cases visits' with
    | cons inside after => rw [inner inside, outer after]

/-- The nodes visited are those at and below the tops. -/
theorem mem_iff (visits : Visits kids depth tops visit) (x : α) :
    x ∈ visit.map Prod.snd ↔ ∃ a ∈ tops, Relation.ReflTransGen (Below kids) a x := by
  induction visits with
  | nil => simp
  | @cons depth a rest below later _ _ inner outer =>
    rw [List.map_cons, List.map_append, List.mem_cons, List.mem_append, inner, outer]
    simp only [List.mem_cons, exists_eq_or_imp]
    rw [Relation.ReflTransGen.cases_head_iff, or_assoc]
    simp only [Below, eq_comm]

/-- A node visited is a top, at the depth of the tops, or lies directly below another. -/
theorem depth_of_mem (visits : Visits kids depth tops visit) {d : ℕ} {x : α}
    (member : (d, x) ∈ visit) :
    (x ∈ tops ∧ d = depth) ∨ ∃ e a, (e, a) ∈ visit ∧ x ∈ kids a ∧ d = e + 1 := by
  induction visits with
  | nil => cases member
  | @cons depth a rest below later _ _ inner outer =>
    rcases List.mem_cons.mp member with same | member
    · cases same
      exact .inl ⟨List.mem_cons_self, rfl⟩
    · rcases List.mem_append.mp member with inside | after
      · rcases inner inside with ⟨kid, rfl⟩ | ⟨e, b, parent, kid, step⟩
        · exact .inr ⟨depth, a, List.mem_cons_self, kid, rfl⟩
        · exact .inr ⟨e, b, List.mem_cons_of_mem _ (List.mem_append_left _ parent), kid, step⟩
      · rcases outer after with ⟨top, rfl⟩ | ⟨e, b, parent, kid, step⟩
        · exact .inl ⟨List.mem_cons_of_mem a top, rfl⟩
        · exact .inr ⟨e, b, List.mem_cons_of_mem _ (List.mem_append_right _ parent), kid, step⟩

/-- What lies below a node stands right after it. -/
theorem contiguous (visits : Visits kids depth tops visit) {d : ℕ} {x : α}
    (member : (d, x) ∈ visit) :
    ∃ before block after, visit = before ++ (d, x) :: (block ++ after) ∧
      ∀ y, y ∈ block.map Prod.snd ↔ Relation.TransGen (Below kids) x y := by
  induction visits with
  | nil => cases member
  | @cons depth a rest below later visited _ inner outer =>
    rcases List.mem_cons.mp member with same | member
    · cases same
      refine ⟨[], below, later, rfl, fun y => ?_⟩
      rw [visited.mem_iff, Relation.TransGen.head'_iff]
      rfl
    · rcases List.mem_append.mp member with inside | after
      · obtain ⟨before, block, rest', rfl, descends⟩ := inner inside
        exact ⟨(depth, a) :: before, block, rest' ++ later, by simp, descends⟩
      · obtain ⟨before, block, rest', rfl, descends⟩ := outer after
        exact ⟨(depth, a) :: (below ++ before), block, rest', by simp, descends⟩

/-- The tops stand in their order. -/
theorem tops_sublist (visits : Visits kids depth tops visit) : tops.Sublist (visit.map Prod.snd) := by
  induction visits with
  | nil => exact .slnil
  | @cons depth a rest below later _ _ _ outer =>
    rw [List.map_cons, List.map_append]
    exact (outer.trans (List.sublist_append_right _ _)).cons_cons a

/-- So do the nodes directly below one. -/
theorem kids_sublist (visits : Visits kids depth tops visit) {d : ℕ} {x : α}
    (member : (d, x) ∈ visit) : (kids x).Sublist (visit.map Prod.snd) := by
  induction visits with
  | nil => cases member
  | @cons depth a rest below later visited _ inner outer =>
    rw [List.map_cons, List.map_append]
    refine List.Sublist.cons _ ?_
    rcases List.mem_cons.mp member with same | member
    · cases same
      exact visited.tops_sublist.trans (List.sublist_append_left _ _)
    · rcases List.mem_append.mp member with inside | after
      · exact (inner inside).trans (List.sublist_append_left _ _)
      · exact (outer after).trans (List.sublist_append_right _ _)

end Visits

/-- The visits of single nodes, one after the other. -/
theorem visits_each (depth : ℕ) {kids : α → List α} {f : α → Py (List (ℕ × α))} {tops : List α}
    (each : ∀ a ∈ tops, ∃ visit, f a = .ok visit ∧ Visits kids depth [a] visit) :
    ∃ blocks, tops.mapM f = .ok blocks ∧ Visits kids depth tops blocks.flatten := by
  induction tops with
  | nil => exact ⟨[], rfl, .nil depth⟩
  | cons a rest ih =>
    rw [List.forall_mem_cons] at each
    obtain ⟨visit, walked, visits⟩ := each.1
    obtain ⟨blocks, mapped, later⟩ := ih each.2
    refine ⟨visit :: blocks, by rw [List.mapM_cons, walked, mapped]; rfl, ?_⟩
    cases visits with
    | cons inside after =>
      cases after
      simpa using Visits.cons inside later

/-- No path down from `a` has more nodes than there are frames. -/
def Fits (kids : α → List α) (frames : ℕ) (a : α) : Prop :=
  ∀ path, (a :: path).IsChain (Below kids) → path.length < frames

theorem fits_succ {kids : α → List α} {frames : ℕ} {a : α} :
    Fits kids (frames + 1) a ↔ ∀ b ∈ kids a, Fits kids frames b := by
  constructor
  · intro fits b kid path down
    exact Nat.lt_of_succ_lt_succ (fits (b :: path) (List.isChain_cons_cons.mpr ⟨kid, down⟩))
  · intro fits path down
    cases path with
    | nil => exact Nat.succ_pos frames
    | cons b rest =>
      obtain ⟨kid, down⟩ := List.isChain_cons_cons.mp down
      exact Nat.succ_lt_succ (fits b kid rest down)

theorem Fits.below {kids : α → List α} {frames : ℕ} {a b : α} (fits : Fits kids frames a)
    (reached : Relation.ReflTransGen (Below kids) a b) : Fits kids frames b := by
  induction reached with
  | refl => exact fits
  | @tail b c _ kid ih =>
    intro path down
    have longer := ih (c :: path) (List.isChain_cons_cons.mpr ⟨kid, down⟩)
    exact (Nat.lt_succ_self _).trans longer

/-- With frames for every path down the walk comes to its end. -/
theorem walk_visits (deep : Exn) (depth : ℕ) {kids : α → List α} {frames : ℕ} {a : α}
    (fits : Fits kids frames a) :
    ∃ visit, walk deep kids frames depth a = .ok visit ∧ Visits kids depth [a] visit := by
  induction frames generalizing depth a with
  | zero => exact absurd (fits [] (List.isChain_singleton a)) (Nat.not_lt_zero _)
  | succ frames ih =>
    obtain ⟨blocks, mapped, visits⟩ := visits_each (depth + 1) fun b kid =>
      ih (depth + 1) (fits_succ.mp fits b kid)
    refine ⟨(depth, a) :: blocks.flatten, by rw [walk, mapped]; rfl, ?_⟩
    simpa using Visits.cons visits (.nil depth)

/-- And only with those. -/
theorem fits_of_walk {deep : Exn} {kids : α → List α} {frames depth : ℕ} {a : α}
    {visit : List (ℕ × α)} (walked : walk deep kids frames depth a = .ok visit) :
    Fits kids frames a := by
  induction frames generalizing depth a visit with
  | zero => cases walked
  | succ frames ih =>
    rw [walk, bind_ok_iff] at walked
    obtain ⟨blocks, mapped, -⟩ := walked
    refine fits_succ.mpr fun b kid => ?_
    obtain ⟨block, below⟩ := mapM_returns_iff.mp ⟨blocks, mapped⟩ b kid
    exact ih below

/-- Finitely many nodes, each below at most one other and none below itself. -/
structure Forest (nodes roots : List α) (kids : α → List α) : Prop where
  kid_mem : ∀ a, ∀ b ∈ kids a, a ∈ nodes ∧ b ∈ nodes
  root_iff : ∀ b, b ∈ roots ↔ b ∈ nodes ∧ ∀ a, b ∉ kids a
  parent : ∀ a a' b, b ∈ kids a → b ∈ kids a' → a = a'
  kids_nodup : ∀ a, (kids a).Nodup
  roots_nodup : roots.Nodup
  acyclic : ∀ a, ¬ Relation.TransGen (Below kids) a a

/-- No node of the list lies below another one. -/
def Apart (kids : α → List α) (tops : List α) : Prop :=
  ∀ a ∈ tops, ∀ b ∈ tops, ¬ Relation.TransGen (Below kids) a b

namespace Forest
variable {nodes roots : List α} {kids : α → List α}

/-- Each node lies at or below a root. -/
theorem rooted (f : Forest nodes roots kids) {x : α} (member : x ∈ nodes) :
    ∃ r ∈ roots, Relation.ReflTransGen (Below kids) r x := by
  have : IsStrictOrder α (Relation.TransGen (Below kids)) :=
    { irrefl := f.acyclic, trans := fun _ _ _ => Relation.TransGen.trans }
  have wellFounded : {a | a ∈ nodes}.WellFoundedOn (Relation.TransGen (Below kids)) :=
    (List.finite_toSet nodes).wellFoundedOn
  refine wellFounded.induction
    (P := fun x => ∃ r ∈ roots, Relation.ReflTransGen (Below kids) r x) member ?_
  intro x inside ih
  by_cases root : x ∈ roots
  · exact ⟨x, root, .refl⟩
  · obtain ⟨a, kid⟩ : ∃ a, x ∈ kids a := by
      by_contra none_
      exact root ((f.root_iff x).mpr ⟨inside, fun a kid => none_ ⟨a, kid⟩⟩)
    obtain ⟨r, top, below⟩ := ih a (f.kid_mem a x kid).1 (.single kid)
    exact ⟨r, top, below.tail kid⟩

theorem kids_apart (f : Forest nodes roots kids) (a : α) : Apart kids (kids a) := by
  intro b _ c inC descends
  obtain ⟨d, above, last⟩ := Relation.TransGen.tail'_iff.mp descends
  obtain rfl := f.parent d a c last inC
  exact f.acyclic d (Relation.TransGen.head' (by assumption) above)

theorem roots_apart (f : Forest nodes roots kids) : Apart kids roots := by
  intro a _ b root descends
  obtain ⟨d, -, last⟩ := Relation.TransGen.tail'_iff.mp descends
  exact ((f.root_iff b).mp root).2 d last

/-- What lies at or below two nodes makes one lie at or below the other. -/
theorem comparable (f : Forest nodes roots kids) {a b x : α}
    (first : Relation.ReflTransGen (Below kids) a x) (second : Relation.ReflTransGen (Below kids) b x) :
    Relation.ReflTransGen (Below kids) a b ∨ Relation.ReflTransGen (Below kids) b a := by
  have unique : Relator.RightUnique (Function.swap (Below kids)) := fun x a b left right =>
    f.parent a b x left right
  have up := Relation.ReflTransGen.total_of_right_unique unique (Relation.reflTransGen_swap.mpr first)
    (Relation.reflTransGen_swap.mpr second)
  rcases up with up | up
  · exact .inr (Relation.reflTransGen_swap.mp up)
  · exact .inl (Relation.reflTransGen_swap.mp up)

/-- Walked from nodes apart from each other, no node is visited twice. -/
theorem visits_nodup (f : Forest nodes roots kids) {depth : ℕ} {tops : List α}
    {visit : List (ℕ × α)} (visits : Visits kids depth tops visit) (distinct : tops.Nodup)
    (apart : Apart kids tops) : (visit.map Prod.snd).Nodup := by
  induction visits with
  | nil => exact List.nodup_nil
  | @cons depth a rest below later inside after inner outer =>
    obtain ⟨once, distinct⟩ := List.nodup_cons.mp distinct
    have apart' : Apart kids rest := fun b inB c inC =>
      apart b (List.mem_cons_of_mem a inB) c (List.mem_cons_of_mem a inC)
    have descends {x : α} (member : x ∈ below.map Prod.snd) :
        Relation.TransGen (Below kids) a x := by
      rw [Relation.TransGen.head'_iff]
      exact (inside.mem_iff x).mp member
    -- a later top is neither above nor below the first one
    have elsewhere {c : α} (top : c ∈ rest) : ¬ Relation.ReflTransGen (Below kids) a c ∧
        ¬ Relation.ReflTransGen (Below kids) c a := by
      have other : c ≠ a := fun same => once (same ▸ top)
      constructor
      · intro down
        rcases Relation.reflTransGen_iff_eq_or_transGen.mp down with same | strictly
        · exact other same
        · exact apart a List.mem_cons_self c (List.mem_cons_of_mem a top) strictly
      · intro up
        rcases Relation.reflTransGen_iff_eq_or_transGen.mp up with same | strictly
        · exact other same.symm
        · exact apart c (List.mem_cons_of_mem a top) a List.mem_cons_self strictly
    rw [List.map_cons, List.map_append, List.nodup_cons, List.mem_append, not_or, List.nodup_append']
    refine ⟨⟨fun again => f.acyclic a (descends again), fun again => ?_⟩,
      inner (f.kids_nodup a) (f.kids_apart a), outer distinct apart', fun x inBelow inLater => ?_⟩
    · obtain ⟨c, top, reaches⟩ := (after.mem_iff a).mp again
      exact (elsewhere top).2 reaches
    · obtain ⟨c, top, reaches⟩ := (after.mem_iff x).mp inLater
      rcases f.comparable (descends inBelow).to_reflTransGen reaches with down | up
      · exact (elsewhere top).1 down
      · exact (elsewhere top).2 up

/-- A path downwards meets no node twice. -/
theorem path_nodup (f : Forest nodes roots kids) {path : List α} (down : path.IsChain (Below kids)) :
    path.Nodup := by
  have below : path.IsChain (Relation.TransGen (Below kids)) := down.imp fun _ _ => .single
  refine (List.isChain_iff_pairwise.mp below).imp fun descends same => ?_
  subst same
  exact f.acyclic _ descends

end Forest

end Graphs
