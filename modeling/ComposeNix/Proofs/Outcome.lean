/-!
# What a computation ensures

A computation that may fail ends with a value or with a fault, and `Ensures` says something about
either end.  What a step ensures for every state that a row of steps can be in, the whole row
ensures: `Ensures.foldlM` is the form in which a machine is followed over its input.

`Succeeds` says that it ends with a value, whichever.  Where no step depends on the values of the
steps in front, a computation succeeds exactly if all its steps do (`succeeds_bind`).

Where the value is known, so are the values that it was made of: a computation that ends with it is
taken apart step by step (`bind_eq_ok_iff`).
-/

namespace ComposeNix

variable {ε δ α β : Type}

/-- The value of a computation satisfies `good`, or its fault satisfies `fault`. -/
def Ensures (fault : ε → Prop) (good : α → Prop) : Except ε α → Prop
  | .ok a => good a
  | .error e => fault e

namespace Ensures

variable {F : ε → Prop} {P : α → Prop} {Q : β → Prop} {x : Except ε α}

/-- Nothing is asked of the value or of the fault. -/
theorem any (x : Except ε α) : Ensures (fun _ => True) (fun _ => True) x := by
  cases x <;> trivial

/-- A value is the one that the computation ends with. -/
theorem self (x : Except ε α) : Ensures (fun _ => True) (fun a => x = .ok a) x := by
  cases x <;> trivial

theorem imp {P' : α → Prop} (hx : Ensures F P x) (h : ∀ a, P a → P' a) : Ensures F P' x := by
  cases x with
  | ok a => exact h a hx
  | error e => exact hx

theorem and {G : ε → Prop} {P' : α → Prop} (hx : Ensures F P x) (hx' : Ensures G P' x) :
    Ensures F (fun a => P a ∧ P' a) x := by
  cases x with
  | ok a => exact ⟨hx, hx'⟩
  | error e => exact hx

theorem ite {c : Prop} [Decidable c] {y : Except ε α} (hx : Ensures F P x) (hy : Ensures F P y) :
    Ensures F P (if c then x else y) := by
  split
  · exact hx
  · exact hy

theorem bind {f : α → Except ε β} (hx : Ensures F P x) (hf : ∀ a, P a → Ensures F Q (f a)) :
    Ensures F Q (x >>= f) := by
  cases x with
  | ok a => exact hf a hx
  | error e => exact hx

theorem map {f : α → β} (hx : Ensures F P x) (hf : ∀ a, P a → Q (f a)) :
    Ensures F Q (x.map f) := by
  cases x with
  | ok a => exact hf a hx
  | error e => exact hx

theorem mapError {F' : δ → Prop} {f : ε → δ} (hx : Ensures F P x) (hf : ∀ e, F e → F' (f e)) :
    Ensures F' P (x.mapError f) := by
  cases x with
  | ok a => exact hx
  | error e => exact hf e hx

/-- What every computation of a row ensures, the row ensures of all its values. -/
theorem mapM {f : α → Except ε β} {xs : List α} (h : ∀ a ∈ xs, Ensures F Q (f a)) :
    Ensures F (fun ys => ∀ b ∈ ys, Q b) (xs.mapM f) := by
  induction xs with
  | nil => exact fun b hb => absurd hb List.not_mem_nil
  | cons a xs ih =>
    rw [List.mapM_cons]
    refine (h a List.mem_cons_self).bind fun b hb => ?_
    refine (ih fun a' ha' => h a' (List.mem_cons_of_mem a ha')).bind fun ys hys => ?_
    exact List.forall_mem_cons.mpr ⟨hb, hys⟩

/-- What every step keeps, a row of steps keeps. -/
theorem foldlM {f : β → α → Except ε β} {xs : List α}
    (h : ∀ b, Q b → ∀ a ∈ xs, Ensures F Q (f b a)) {b : β} (hb : Q b) :
    Ensures F Q (xs.foldlM f b) := by
  induction xs generalizing b with
  | nil => exact hb
  | cons a xs ih =>
    rw [List.foldlM_cons]
    refine (h b hb a List.mem_cons_self).bind fun b' hb' => ?_
    exact ih (fun b'' hb'' a' ha' => h b'' hb'' a' (List.mem_cons_of_mem a ha')) hb'

end Ensures

/-- The computation ends with a value. -/
def Succeeds (x : Except ε α) : Prop := ∃ a, x = .ok a

instance (x : Except ε α) : Decidable (Succeeds x) :=
  match x with
  | .ok a => .isTrue ⟨a, rfl⟩
  | .error _ => .isFalse fun ⟨_, h⟩ => nomatch h

@[simp] theorem succeeds_ok (a : α) : Succeeds (.ok a : Except ε α) := ⟨a, rfl⟩

@[simp] theorem succeeds_pure (a : α) : Succeeds (pure a : Except ε α) := ⟨a, rfl⟩

@[simp] theorem not_succeeds_error (e : ε) : ¬ Succeeds (.error e : Except ε α) :=
  fun ⟨_, h⟩ => nomatch h

@[simp] theorem succeeds_map {x : Except ε α} {f : α → β} :
    Succeeds (x.map f) ↔ Succeeds x := by
  cases x <;> simp [Except.map]

theorem Succeeds.bind {x : Except ε α} {f : α → Except ε β} (hx : Succeeds x)
    (hf : ∀ a, Succeeds (f a)) : Succeeds (x >>= f) := by
  obtain ⟨a, rfl⟩ := hx
  exact hf a

theorem succeeds_bind {x : Except ε α} {f : α → Except ε β} {P : Prop}
    (hf : ∀ a, Succeeds (f a) ↔ P) : Succeeds (x >>= f) ↔ Succeeds x ∧ P := by
  cases x with
  | ok a => exact (hf a).trans (by simp)
  | error e => exact iff_of_false (not_succeeds_error e) fun h => not_succeeds_error e h.1

theorem succeeds_bind_pure {x : Except ε α} {f : α → β} :
    Succeeds (x >>= fun a => pure (f a)) ↔ Succeeds x := by
  rw [succeeds_bind fun a => iff_true_intro (succeeds_pure (f a)), and_true]

/-- A row of computations succeeds exactly if each of them does. -/
theorem succeeds_mapM {f : α → Except ε β} {xs : List α} :
    Succeeds (xs.mapM f) ↔ ∀ a ∈ xs, Succeeds (f a) := by
  induction xs with
  | nil => simp
  | cons a xs ih =>
    rw [List.mapM_cons, List.forall_mem_cons, ← ih]
    exact succeeds_bind fun b => succeeds_bind_pure

/-! ## Known values -/

theorem bind_eq_ok_iff {x : Except ε α} {f : α → Except ε β} {b : β} :
    x >>= f = .ok b ↔ ∃ a, x = .ok a ∧ f a = .ok b := by
  cases x <;> simp [bind, Except.bind]

theorem map_eq_ok_iff {x : Except ε α} {f : α → β} {b : β} :
    x.map f = .ok b ↔ ∃ a, x = .ok a ∧ f a = b := by
  cases x <;> simp [Except.map]

/-- What a fault is reported as makes no difference to a value. -/
theorem mapError_eq_ok_iff {x : Except ε α} {f : ε → δ} {a : α} :
    x.mapError f = .ok a ↔ x = .ok a := by
  cases x with
  | error e =>
    have hfault : Except.mapError f (.error e : Except ε α) = .error (f e) := rfl
    simp [hfault]
  | ok b =>
    have hvalue : Except.mapError f (.ok b : Except ε α) = .ok b := rfl
    simp [hvalue]

theorem mapError_eq_error_iff {x : Except ε α} {f : ε → δ} {e' : δ} :
    x.mapError f = .error e' ↔ ∃ e, x = .error e ∧ f e = e' := by
  cases x with
  | error e =>
    have hfault : Except.mapError f (.error e : Except ε α) = .error (f e) := rfl
    simp [hfault]
  | ok a =>
    have hvalue : Except.mapError f (.ok a : Except ε α) = .ok a := rfl
    simp [hvalue]

theorem mapError_mapError {γ : Type} (x : Except ε α) (f : ε → δ) (g : δ → γ) :
    (x.mapError f).mapError g = x.mapError (g ∘ f) := by
  cases x <;> rfl

theorem toOption_eq_some_iff {x : Except ε α} {a : α} : x.toOption = some a ↔ x = .ok a := by
  cases x <;> simp [Except.toOption]

end ComposeNix
