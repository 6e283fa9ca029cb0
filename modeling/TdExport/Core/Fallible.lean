import Mathlib.Data.List.Forall2
import Mathlib.Tactic

/-!
# Fallible computations

Rules for `Except`: what a sequence of steps went through when it succeeds, and where the error of
a sequence comes from. A rule for `Option`.
-/

namespace Core

variable {ε α β γ : Type}

/-- A sequence of two steps succeeds when both do. -/
lemma bind_eq_ok {x : Except ε α} {f : α → Except ε β} {b : β} :
    (x >>= f) = .ok b ↔ ∃ a, x = .ok a ∧ f a = .ok b := by
  cases x <;> simp [bind, Except.bind]

lemma ok_bind (a : α) (f : α → Except ε β) : (.ok a >>= f) = f a := rfl

lemma bind_pair_eq_ok {x : Except ε α} {y : Except ε β} {f : α → β → γ} {c : γ} :
    (do let a ← x; let b ← y; return f a b) = .ok c ↔
      ∃ a b, x = .ok a ∧ y = .ok b ∧ c = f a b := by
  simp only [bind_eq_ok]
  constructor
  · rintro ⟨a, ha, b, hb, hpure⟩
    cases hpure
    exact ⟨a, b, ha, hb, rfl⟩
  · rintro ⟨a, b, ha, hb, rfl⟩
    exact ⟨a, ha, b, hb, rfl⟩

lemma bind_pair_eq_some {x : Option α} {y : α → Option β} {f : α → β → γ} {c : γ} :
    (do let a ← x; let b ← y a; return f a b) = some c ↔
      ∃ a b, x = some a ∧ y a = some b ∧ c = f a b := by
  simp only [Option.bind_eq_bind, Option.bind_eq_some_iff]
  constructor
  · rintro ⟨a, ha, b, hb, hpure⟩
    exact ⟨a, b, ha, hb, (Option.some_inj.mp hpure).symm⟩
  · rintro ⟨a, b, ha, hb, rfl⟩
    exact ⟨a, ha, b, hb, rfl⟩

lemma exists_eq_ok_of_isOk {x : Except ε α} (h : x.isOk = true) : ∃ a, x = .ok a := by
  cases x with
  | error e => cases h
  | ok a => exact ⟨a, rfl⟩

lemma mapM_cons_eq_ok {f : α → Except ε β} {a : α} {l : List α} {bs : List β} :
    (a :: l).mapM f = .ok bs ↔ ∃ b bs', f a = .ok b ∧ l.mapM f = .ok bs' ∧ bs = b :: bs' := by
  rw [List.mapM_cons]
  exact bind_pair_eq_ok

/-- A traversal succeeds when every step does. -/
theorem mapM_eq_ok_iff {f : α → Except ε β} {l : List α} {bs : List β} :
    l.mapM f = .ok bs ↔ List.Forall₂ (fun a b => f a = .ok b) l bs := by
  induction l generalizing bs with
  | nil =>
    rw [List.forall₂_nil_left_iff]
    exact ⟨fun h => by cases h; rfl, fun h => by rw [h]; rfl⟩
  | cons a l ih =>
    simp only [mapM_cons_eq_ok, ih, List.forall₂_cons_left_iff]

/-- A traversal whose steps give `g`, where they succeed, gives the map by `g`. -/
lemma eq_map_of_mapM_eq_ok {f : α → Except ε β} {g : α → β} (hg : ∀ a b, f a = .ok b → b = g a)
    {l : List α} {bs : List β} (h : l.mapM f = .ok bs) : bs = l.map g := by
  induction mapM_eq_ok_iff.mp h with
  | nil => rfl
  | @cons a b l bs hab hl ih => rw [hg a b hab, ih (mapM_eq_ok_iff.mpr hl), List.map_cons]

lemma exists_mapM_eq_ok_iff {f : α → Except ε β} {l : List α} :
    (∃ bs, l.mapM f = .ok bs) ↔ ∀ a ∈ l, ∃ b, f a = .ok b := by
  induction l with
  | nil => exact ⟨fun _ a ha => absurd ha List.not_mem_nil, fun _ => ⟨[], rfl⟩⟩
  | cons a l ih =>
    simp only [mapM_cons_eq_ok, List.forall_mem_cons, ← ih]
    constructor
    · rintro ⟨_, b, bs, hb, hbs, rfl⟩
      exact ⟨⟨b, hb⟩, bs, hbs⟩
    · rintro ⟨⟨b, hb⟩, bs, hbs⟩
      exact ⟨b :: bs, b, bs, hb, hbs, rfl⟩

/-- Related lists: every element of the second stands beside one of the first. -/
lemma exists_of_mem_forall₂ {R : α → β → Prop} {l : List α} {m : List β} {b : β}
    (h : List.Forall₂ R l m) (hb : b ∈ m) : ∃ a ∈ l, R a b := by
  induction h with
  | nil => exact absurd hb List.not_mem_nil
  | cons hab _ ih =>
    rcases List.mem_cons.mp hb with rfl | hb
    · exact ⟨_, List.mem_cons_self, hab⟩
    · obtain ⟨a, ha, hR⟩ := ih hb
      exact ⟨a, List.mem_cons_of_mem _ ha, hR⟩

/-- What two functions find in a list stands side by side when they find it at the same places. -/
lemma forall₂_filterMap {R : β → γ → Prop} {f : α → Option β} {g : α → Option γ}
    (h : ∀ a, Option.Rel R (f a) (g a)) (l : List α) :
    List.Forall₂ R (l.filterMap f) (l.filterMap g) := by
  induction l with
  | nil => exact .nil
  | cons a l ih =>
    have ha := h a
    cases hf : f a <;> cases hg : g a <;> rw [hf, hg] at ha
    · rwa [List.filterMap_cons_none hf, List.filterMap_cons_none hg]
    · cases ha
    · cases ha
    · cases ha with
      | some hab =>
        rw [List.filterMap_cons_some hf, List.filterMap_cons_some hg]
        exact .cons hab ih

/-- One element for each of those that `p` chooses. -/
lemma length_flatMap_of_ite {f : α → List β} {p : α → Bool}
    (h : ∀ a, (f a).length = if p a then 1 else 0) (l : List α) :
    (l.flatMap f).length = (l.filter p).length := by
  induction l with
  | nil => rfl
  | cons a l ih =>
    rw [List.flatMap_cons, List.length_append, h, ih, List.filter_cons]
    split_ifs
    · rw [List.length_cons, Nat.add_comm]
    · rw [Nat.zero_add]

/-! ### Success -/

/-- `x` has a result. -/
def Succeeds (x : Except ε α) : Prop := ∃ a, x = .ok a

@[simp] lemma succeeds_pure (a : α) : Succeeds (pure a : Except ε α) := ⟨a, rfl⟩

lemma succeeds_bind {x : Except ε α} {f : α → Except ε β} :
    Succeeds (x >>= f) ↔ ∃ a, x = .ok a ∧ Succeeds (f a) := by
  constructor
  · rintro ⟨b, hb⟩
    obtain ⟨a, ha, hfa⟩ := bind_eq_ok.mp hb
    exact ⟨a, ha, b, hfa⟩
  · rintro ⟨a, ha, b, hfa⟩
    exact ⟨b, bind_eq_ok.mpr ⟨a, ha, hfa⟩⟩

/-- Where the success of the second step does not depend on the result of the first. -/
lemma succeeds_bind_iff (p : Prop) {x : Except ε α} {f : α → Except ε β}
    (hf : ∀ a, x = .ok a → (Succeeds (f a) ↔ p)) : Succeeds (x >>= f) ↔ Succeeds x ∧ p := by
  rw [succeeds_bind]
  constructor
  · rintro ⟨a, ha, hfa⟩
    exact ⟨⟨a, ha⟩, (hf a ha).mp hfa⟩
  · rintro ⟨⟨a, ha⟩, hp⟩
    exact ⟨a, ha, (hf a ha).mpr hp⟩

/-- Steps that always succeed do not matter. -/
lemma succeeds_bind_left {x : Except ε α} {f : α → Except ε β} (hf : ∀ a, Succeeds (f a)) :
    Succeeds (x >>= f) ↔ Succeeds x := by
  rw [succeeds_bind_iff True fun a _ => iff_true_intro (hf a), and_true]

lemma succeeds_mapError {ε' : Type} {x : Except ε α} {f : ε → ε'} :
    Succeeds (x.mapError f) ↔ Succeeds x := by
  cases x <;> simp [Succeeds, Except.mapError]

lemma succeeds_mapM {f : α → Except ε β} {l : List α} :
    Succeeds (l.mapM f) ↔ ∀ a ∈ l, Succeeds (f a) :=
  exists_mapM_eq_ok_iff

/-! ### Success and result -/

/-- `x` has a result when `p` holds and only then, and the result is `v`. -/
def OkIff (x : Except ε α) (p : Prop) (v : α) : Prop := ∀ a, x = .ok a ↔ p ∧ a = v

namespace OkIff

variable {x : Except ε α} {p q : Prop} {v : α}

lemma of_succeeds (hp : Succeeds x ↔ p) (hv : ∀ a, x = .ok a → a = v) : OkIff x p v := by
  intro a
  constructor
  · intro h
    exact ⟨hp.mp ⟨a, h⟩, hv a h⟩
  · rintro ⟨h, rfl⟩
    obtain ⟨b, hb⟩ := hp.mpr h
    rw [hb, hv b hb]

lemma succeeds_iff (h : OkIff x p v) : Succeeds x ↔ p :=
  ⟨fun ⟨a, ha⟩ => ((h a).mp ha).1, fun hp => ⟨v, (h v).mpr ⟨hp, rfl⟩⟩⟩

lemma ok (v : α) : OkIff (.ok v : Except ε α) True v := by
  intro a
  rw [true_and]
  exact ⟨fun h => (Except.ok.inj h).symm, fun h => congrArg _ h.symm⟩

lemma congr (h : OkIff x p v) (hpq : p ↔ q) : OkIff x q v := fun a => by rw [h a, hpq]

lemma mapError {ε' : Type} (h : OkIff x p v) (f : ε → ε') : OkIff (x.mapError f) p v := by
  intro a
  rw [← h a]
  cases x <;> simp [Except.mapError]

lemma bind {f : α → Except ε β} {w : β} (hx : OkIff x p v) (hf : OkIff (f v) q w) :
    OkIff (x >>= f) (p ∧ q) w := by
  intro b
  rw [bind_eq_ok]
  constructor
  · rintro ⟨a, ha, hfa⟩
    obtain ⟨hp, rfl⟩ := (hx a).mp ha
    obtain ⟨hq, rfl⟩ := (hf b).mp hfa
    exact ⟨⟨hp, hq⟩, rfl⟩
  · rintro ⟨⟨hp, hq⟩, rfl⟩
    exact ⟨v, (hx v).mpr ⟨hp, rfl⟩, (hf b).mpr ⟨hq, rfl⟩⟩

/-- The result of a last step is changed by a function that cannot fail. -/
lemma map (h : OkIff x p v) (f : α → β) : OkIff (x >>= fun a => .ok (f a)) p (f v) :=
  (h.bind (ok (f v))).congr (and_iff_left trivial)

variable {R : α → β → Prop} {l : List α} {m : List β}

/-- A traversal succeeds when each step does, and gives what the steps give. -/
lemma mapM {f : α → Except ε γ} {g : β → γ} {P : β → Prop} (h : List.Forall₂ R l m)
    (hf : ∀ a b, R a b → OkIff (f a) (P b) (g b)) :
    OkIff (l.mapM f) (∀ b ∈ m, P b) (m.map g) := by
  induction h with
  | nil => exact (ok []).congr (by simp)
  | @cons a b l m hab _ ih =>
    rw [List.mapM_cons, List.map_cons]
    exact ((hf a b hab).bind (ih.map (g b :: ·))).congr List.forall_mem_cons.symm

/-- A fold succeeds when each step does. -/
lemma foldlM {f : γ → α → Except ε γ} {g : γ → β → γ} {P : β → Prop} (h : List.Forall₂ R l m)
    (hf : ∀ c a b, R a b → OkIff (f c a) (P b) (g c b)) (c : γ) :
    OkIff (l.foldlM f c) (∀ b ∈ m, P b) (m.foldl g c) := by
  induction h generalizing c with
  | nil => exact (ok c).congr (by simp)
  | @cons a b l m hab _ ih =>
    rw [List.foldlM_cons, List.foldl_cons]
    exact ((hf c a b hab).bind (ih (g c b))).congr List.forall_mem_cons.symm

end OkIff

/-! ### Errors -/

/-- Every error of `x` is one of `p`. -/
def ErrorsIn (p : ε → Prop) (x : Except ε α) : Prop := ∀ e, x = .error e → p e

section ErrorsIn

variable {p : ε → Prop}

lemma ErrorsIn.pure (a : α) : ErrorsIn p (pure a : Except ε α) := fun e h => by cases h

lemma ErrorsIn.bind {x : Except ε α} {f : α → Except ε β} (hx : ErrorsIn p x)
    (hf : ∀ a, ErrorsIn p (f a)) : ErrorsIn p (x >>= f) := by
  cases x with
  | error e' =>
    intro e h
    cases h
    exact hx e' rfl
  | ok a => exact hf a

lemma ErrorsIn.mapM {f : α → Except ε β} {l : List α} (h : ∀ a ∈ l, ErrorsIn p (f a)) :
    ErrorsIn p (l.mapM f) := by
  induction l with
  | nil => exact .pure []
  | cons a l ih =>
    rw [List.mapM_cons]
    apply (h a List.mem_cons_self).bind
    intro b
    exact (ih fun x hx => h x (List.mem_cons_of_mem _ hx)).bind fun bs => .pure _

end ErrorsIn

/-- `x` does not fail with `e`. -/
def Avoids (e : ε) (x : Except ε α) : Prop := x ≠ .error e

lemma ErrorsIn.avoids {p : ε → Prop} {e : ε} {x : Except ε α} (h : ErrorsIn p x) (he : ¬ p e) :
    Avoids e x :=
  fun hx => he (h e hx)

end Core
