import Mathlib

/-!
# Inversion of results

A computation that can fail is taken apart from its result: what a sequence of two steps, a map over
a result and a traversal of a list say about their parts when the whole succeeds, and which part is
to blame when it fails. A traversal that succeeds relates the two lists element by element
(`List.Forall₂`), a traversal that fails stops at its first failing element. At the end stand facts
about such lists, about lists joined to one or made longer and about what is not in a list.
-/

namespace Dcpu.Results

variable {ε ε' α β γ δ : Type}

/-- Two steps succeed if both do. -/
lemma bind_eq_ok {x : Except ε α} {f : α → Except ε β} {b : β} :
    (x >>= f) = .ok b ↔ ∃ a, x = .ok a ∧ f a = .ok b := by
  cases x with
  | error e => exact ⟨nofun, nofun⟩
  | ok a => exact ⟨fun h => ⟨a, rfl, h⟩, fun ⟨_, e, h⟩ => by cases e; exact h⟩

/-- Two steps fail if the first does or the second does after it. -/
lemma bind_eq_error {x : Except ε α} {f : α → Except ε β} {e : ε} :
    (x >>= f) = .error e ↔ x = .error e ∨ ∃ a, x = .ok a ∧ f a = .error e := by
  cases x with
  | error e' =>
    constructor
    · intro h
      cases h
      exact .inl rfl
    · rintro (h | ⟨_, h, _⟩)
      · cases h
        rfl
      · cases h
  | ok a =>
    constructor
    · intro h
      exact .inr ⟨a, rfl, h⟩
    · rintro (h | ⟨_, h, e⟩)
      · cases h
      · cases h
        exact e

lemma map_eq_ok {x : Except ε α} {f : α → β} {b : β} :
    x.map f = .ok b ↔ ∃ a, x = .ok a ∧ f a = b := by
  cases x with
  | error e => exact ⟨nofun, nofun⟩
  | ok a => simp [Except.map]

lemma map_eq_error {x : Except ε α} {f : α → β} {e : ε} :
    x.map f = .error e ↔ x = .error e := by
  cases x <;> simp [Except.map]

lemma mapError_eq_ok {x : Except ε α} {f : ε → ε'} {a : α} : x.mapError f = .ok a ↔ x = .ok a := by
  cases x <;> simp [Except.mapError]

lemma toOption_eq_some {x : Except ε α} {a : α} : x.toOption = some a ↔ x = .ok a := by
  cases x <;> simp [Except.toOption]

/-- The error of a result. -/
def error? : Except ε α → Option ε
  | .error e => some e
  | .ok _ => none

lemma error?_eq_some {x : Except ε α} {e : ε} : error? x = some e ↔ x = .error e := by
  cases x <;> simp [error?]

/-- Maps both the errors and the values of results. -/
def mapBoth (e : ε → ε') (f : α → β) : Except ε α → Except ε' β
  | .error x => .error (e x)
  | .ok a => .ok (f a)

/-- A map goes through two steps if it goes through the second, from what the first gives. -/
lemma mapBoth_bind {e : ε → ε'} {f : α → γ} {g : β → δ} {next : α → Except ε β}
    {next' : γ → Except ε' δ} {x : Except ε α}
    (commutes : ∀ a, x = .ok a → mapBoth e g (next a) = next' (f a)) :
    mapBoth e g (x >>= next) = mapBoth e f x >>= next' := by
  cases x with
  | error _ => rfl
  | ok a => exact commutes a rfl

/-- A map goes through a traversal if it goes through every step of it. -/
lemma mapBoth_mapM {e : ε → ε'} {f : α → γ} {g : β → δ} {step : α → Except ε β}
    {step' : γ → Except ε' δ} {xs : List α}
    (commutes : ∀ a ∈ xs, mapBoth e g (step a) = step' (f a)) :
    mapBoth e (List.map g) (xs.mapM step) = (xs.map f).mapM step' := by
  induction xs with
  | nil => rfl
  | cons x xs ih =>
    obtain ⟨first, rest⟩ := List.forall_mem_cons.1 commutes
    rw [List.map_cons, List.mapM_cons, List.mapM_cons, ← first, ← ih rest]
    apply mapBoth_bind
    intro y _
    apply mapBoth_bind
    exact fun _ _ => rfl

/-- A traversal succeeds if every step of it does. -/
lemma mapM_eq_ok {f : α → Except ε β} {xs : List α} {ys : List β} :
    xs.mapM f = .ok ys ↔ List.Forall₂ (fun x y => f x = .ok y) xs ys := by
  induction xs generalizing ys with
  | nil =>
    rw [List.mapM_nil, List.forall₂_nil_left_iff]
    exact ⟨fun h => by cases h; rfl, fun h => by rw [h]; rfl⟩
  | cons x xs ih =>
    rw [List.mapM_cons, bind_eq_ok, List.forall₂_cons_left_iff]
    constructor
    · rintro ⟨y, hy, rest⟩
      obtain ⟨zs, hzs, e⟩ := bind_eq_ok.1 rest
      cases e
      exact ⟨y, zs, hy, ih.1 hzs, rfl⟩
    · rintro ⟨y, zs, hy, hzs, rfl⟩
      exact ⟨y, hy, bind_eq_ok.2 ⟨zs, ih.2 hzs, rfl⟩⟩

/-- A traversal fails at its first failing step. -/
lemma mapM_eq_error {f : α → Except ε β} {xs : List α} {e : ε} :
    xs.mapM f = .error e ↔ ∃ before x after ys, xs = before ++ x :: after ∧
      before.mapM f = .ok ys ∧ f x = .error e := by
  induction xs with
  | nil => exact ⟨nofun, by rintro ⟨before, x, after, ys, h, _⟩; cases before <;> cases h⟩
  | cons x xs ih =>
    rw [List.mapM_cons, bind_eq_error]
    constructor
    · rintro (h | ⟨y, hy, rest⟩)
      · exact ⟨[], x, xs, [], rfl, rfl, h⟩
      · rcases bind_eq_error.1 rest with h | ⟨_, _, h⟩
        · obtain ⟨before, z, after, ys, rfl, hb, hz⟩ := ih.1 h
          refine ⟨x :: before, z, after, y :: ys, rfl, ?_, hz⟩
          exact mapM_eq_ok.2 (.cons hy (mapM_eq_ok.1 hb))
        · cases h
    · rintro ⟨before, z, after, ys, h, hb, hz⟩
      cases before with
      | nil =>
        cases h
        exact .inl hz
      | cons b before =>
        cases h
        cases mapM_eq_ok.1 hb with
        | @cons _ y _ zs hy hzs =>
          refine .inr ⟨y, hy, bind_eq_error.2 (.inl ?_)⟩
          exact ih.2 ⟨before, z, after, zs, rfl, mapM_eq_ok.2 hzs, hz⟩

lemma exists_mapM_eq_ok {f : α → Except ε β} {xs : List α} (each : ∀ x ∈ xs, ∃ y, f x = .ok y) :
    ∃ ys, xs.mapM f = .ok ys := by
  cases result : xs.mapM f with
  | ok ys => exact ⟨ys, rfl⟩
  | error e =>
    obtain ⟨before, x, after, _, rfl, _, failed⟩ := mapM_eq_error.1 result
    obtain ⟨y, ok⟩ := each x (by simp)
    rw [ok] at failed
    cases failed

lemma mapM_eq_some {f : α → Option β} {xs : List α} {ys : List β} :
    xs.mapM f = some ys ↔ List.Forall₂ (fun x y => f x = some y) xs ys := by
  induction xs generalizing ys with
  | nil =>
    rw [List.mapM_nil, List.forall₂_nil_left_iff]
    exact ⟨fun h => by cases h; rfl, fun h => by rw [h]; rfl⟩
  | cons x xs ih =>
    rw [List.mapM_cons, List.forall₂_cons_left_iff, Option.bind_eq_bind, Option.bind_eq_some_iff]
    constructor
    · rintro ⟨y, hy, rest⟩
      obtain ⟨zs, hzs, e⟩ := Option.bind_eq_some_iff.1 rest
      cases e
      exact ⟨y, zs, hy, ih.1 hzs, rfl⟩
    · rintro ⟨y, zs, hy, hzs, rfl⟩
      exact ⟨y, hy, Option.bind_eq_some_iff.2 ⟨zs, ih.2 hzs, rfl⟩⟩

lemma exists_of_mem_left {R : α → β → Prop} {xs : List α} {ys : List β} {x : α}
    (rel : List.Forall₂ R xs ys) (mem : x ∈ xs) : ∃ y ∈ ys, R x y := by
  induction rel with
  | nil => cases mem
  | @cons a b _ _ first _ ih =>
    rcases List.mem_cons.1 mem with rfl | mem
    · exact ⟨b, List.mem_cons_self, first⟩
    · obtain ⟨y, mem, h⟩ := ih mem
      exact ⟨y, List.mem_cons_of_mem _ mem, h⟩

lemma exists_of_mem_right {R : α → β → Prop} {xs : List α} {ys : List β} {y : β}
    (rel : List.Forall₂ R xs ys) (mem : y ∈ ys) : ∃ x ∈ xs, R x y :=
  exists_of_mem_left rel.flip mem

lemma exists_getElem? {R : α → β → Prop} {xs : List α} {ys : List β} {n : Nat} {x : α}
    (rel : List.Forall₂ R xs ys) (here : xs[n]? = some x) : ∃ y, ys[n]? = some y ∧ R x y := by
  induction rel generalizing n with
  | nil => cases here
  | @cons a b _ _ first _ ih =>
    cases n with
    | zero =>
      cases here
      exact ⟨b, rfl, first⟩
    | succ n => exact ih here

lemma map_eq_map_iff {f : α → γ} {g : β → γ} {xs : List α} {ys : List β} :
    xs.map f = ys.map g ↔ List.Forall₂ (fun x y => f x = g y) xs ys := by
  rw [← List.forall₂_eq_eq_eq, List.forall₂_map_left_iff, List.forall₂_map_right_iff]

/-- Lists that are related to one list are related to each other. -/
lemma forall₂_trans {R : α → β → Prop} {S : β → γ → Prop} {T : α → γ → Prop} {xs : List α}
    {ys : List β} {zs : List γ} (step : ∀ x y z, R x y → S y z → T x z)
    (first : List.Forall₂ R xs ys) (second : List.Forall₂ S ys zs) : List.Forall₂ T xs zs := by
  induction first generalizing zs with
  | nil =>
    cases second
    exact .nil
  | cons r _ ih =>
    cases second with
    | cons s rest => exact .cons (step _ _ _ r s) (ih rest)

/-- What can be found for each pair of related elements can be found for the lists. -/
lemma forall₂_choose {R : α → β → Prop} {S : β → γ → Prop} {T : α → γ → Prop} {xs : List α}
    {ys : List β} (step : ∀ x y, R x y → ∃ z, S y z ∧ T x z) (rel : List.Forall₂ R xs ys) :
    ∃ zs, List.Forall₂ S ys zs ∧ List.Forall₂ T xs zs := by
  induction rel with
  | nil => exact ⟨[], .nil, .nil⟩
  | cons r _ ih =>
    obtain ⟨z, s, t⟩ := step _ _ r
    obtain ⟨zs, ss, ts⟩ := ih
    exact ⟨z :: zs, .cons s ss, .cons t ts⟩

/-- Lists that are related to one list are put together element by element. -/
lemma forall₂_zipWith {R : α → β → Prop} {S : β → γ → Prop} {T : β → δ → Prop} {f : α → γ → δ}
    {xs : List α} {ys : List β} {zs : List γ} (step : ∀ x y z, R x y → S y z → T y (f x z))
    (first : List.Forall₂ R xs ys) (second : List.Forall₂ S ys zs) :
    List.Forall₂ T ys (List.zipWith f xs zs) := by
  induction first generalizing zs with
  | nil =>
    cases second
    exact .nil
  | cons r _ ih =>
    cases second with
    | cons s rest => exact .cons (step _ _ _ r s) (ih rest)

/-- What joins pieces brings in nothing that is neither in a piece nor between them. -/
lemma not_mem_intercalate {a : α} {between : List α} {pieces : List (List α)}
    (apart : a ∉ between) (none : ∀ piece ∈ pieces, a ∉ piece) :
    a ∉ between.intercalate pieces := by
  induction pieces with
  | nil => exact List.not_mem_nil
  | cons piece pieces ih =>
    have first := none piece List.mem_cons_self
    have others := ih fun piece mem => none piece (List.mem_cons_of_mem _ mem)
    cases pieces with
    | nil =>
      rw [List.intercalate_singleton]
      exact first
    | cons next pieces =>
      rw [List.intercalate_cons_cons]
      simp only [List.mem_append, not_or]
      exact ⟨⟨first, apart⟩, others⟩

/-- All elements of a list differ from what is not in it. -/
lemma bne_of_not_mem [DecidableEq α] {a : α} {xs : List α} (absent : a ∉ xs) :
    ∀ x ∈ xs, (x != a) = true := by
  intro x mem
  apply bne_iff_ne.2
  rintro rfl
  exact absent mem

/-- The last element of a list adds its image behind the others, if it has one. -/
lemma filterMap_append_singleton (f : α → Option β) (xs : List α) (x : α) :
    (xs ++ [x]).filterMap f = xs.filterMap f ++ (f x).toList := by
  rw [List.filterMap_append, List.filterMap_cons]
  cases f x <;> rfl

end Dcpu.Results
