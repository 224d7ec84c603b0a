/-!
# Outcomes of checked computations

A computation that may fail is a sequence of steps, each of which may be the last one. These lemmas
take a sequence that succeeded apart into its steps, so that what a success establishes is read off
without following the failures.
-/

namespace RowAccess.Outcome

variable {ε ε' α β : Type}

theorem bind_eq_ok_iff {x : Except ε α} {f : α → Except ε β} {b : β} :
    (x >>= f) = .ok b ↔ ∃ a, x = .ok a ∧ f a = .ok b := by
  cases x with
  | error e => exact ⟨nofun, fun ⟨_, h, _⟩ ↦ nomatch h⟩
  | ok a => exact ⟨fun h ↦ ⟨a, rfl, h⟩, fun ⟨_, h, hf⟩ ↦ Except.ok.inj h ▸ hf⟩

theorem bind_congr {x : Except ε α} {f g : α → Except ε β} (h : ∀ a, x = .ok a → f a = g a) :
    (x >>= f) = (x >>= g) := by
  cases x with
  | error e => rfl
  | ok a => exact h a rfl

theorem check_bind_eq_ok_iff {x : Except ε Unit} {y : Except ε β} {b : β} :
    (x >>= fun _ ↦ y) = .ok b ↔ x = .ok () ∧ y = .ok b :=
  bind_eq_ok_iff.trans ⟨fun ⟨_, hx, hy⟩ ↦ ⟨hx, hy⟩, fun ⟨hx, hy⟩ ↦ ⟨(), hx, hy⟩⟩

/-- A check that is made only in some cases has to succeed in these. -/
theorem ite_check_bind_eq_ok_iff {p : Bool} {x : Except ε Unit} {y : Except ε β} {b : β} :
    (if p = true then x >>= fun _ ↦ y else y) = .ok b ↔
      (p = true → x = .ok ()) ∧ y = .ok b := by
  cases p with
  | false => simp
  | true => simp [check_bind_eq_ok_iff]

@[simp] theorem pure_eq_ok_iff {a b : α} : (pure a : Except ε α) = .ok b ↔ a = b :=
  ⟨Except.ok.inj, congrArg _⟩

@[simp] theorem throw_ne_ok {e : ε} {a : α} : (throw e : Except ε α) ≠ .ok a := nofun

@[simp] theorem ite_ok_iff {p : Bool} {e : ε} {a : α} :
    (if p = true then Except.ok a else .error e) = .ok a ↔ p = true := by
  cases p <;> simp

@[simp] theorem mapError_eq_ok_iff {x : Except ε α} {f : ε → ε'} {a : α} :
    x.mapError f = .ok a ↔ x = .ok a := by
  cases x with
  | error e => exact ⟨nofun, nofun⟩
  | ok b => exact ⟨fun h ↦ congrArg _ (Except.ok.inj h), fun h ↦ congrArg _ (Except.ok.inj h)⟩

theorem mapError_eq_error_iff {x : Except ε α} {f : ε → ε'} {e : ε'} :
    x.mapError f = .error e ↔ ∃ cause, x = .error cause ∧ f cause = e := by
  constructor
  · intro h
    cases x with
    | error cause => exact ⟨cause, rfl, Except.error.inj h⟩
    | ok a => cases h
  · rintro ⟨cause, rfl, rfl⟩
    rfl

theorem map_eq_ok_iff {x : Except ε α} {f : α → β} {b : β} :
    x.map f = .ok b ↔ ∃ a, x = .ok a ∧ f a = b := by
  cases x <;> simp [Except.map]

theorem toOption_map_eq_some_iff {x : Except ε α} {f : α → β} {b : β} :
    x.toOption.map f = some b ↔ ∃ a, x = .ok a ∧ f a = b := by
  cases x <;> simp [Except.toOption]

theorem bind_eq_error_iff {x : Except ε α} {f : α → Except ε β} {e : ε} :
    (x >>= f) = .error e ↔ x = .error e ∨ ∃ a, x = .ok a ∧ f a = .error e := by
  cases x with
  | error e' =>
    exact ⟨fun h ↦ .inl (Except.error.inj h ▸ rfl),
      fun h ↦ h.elim (fun h ↦ Except.error.inj h ▸ rfl) fun ⟨_, ha, _⟩ ↦ nomatch ha⟩
  | ok a =>
    refine ⟨fun h ↦ .inr ⟨a, rfl, h⟩, fun h ↦ ?_⟩
    obtain ⟨b, hb, hf⟩ := h.resolve_left nofun
    exact Except.ok.inj hb ▸ hf

/-- What holds at the start and is kept by every step holds of the result of all steps. -/
theorem foldlM_invariant {P : β → Prop} {step : β → α → Except ε β} {items : List α}
    {start result : β} (h : items.foldlM step start = .ok result) (hstart : P start)
    (hstep : ∀ b item b', item ∈ items → P b → step b item = .ok b' → P b') : P result := by
  induction items generalizing start with
  | nil => exact Except.ok.inj h ▸ hstart
  | cons item rest ih =>
    rw [List.foldlM_cons] at h
    obtain ⟨next, hnext, h⟩ := bind_eq_ok_iff.mp h
    refine ih h (hstep start item next List.mem_cons_self hstart hnext) ?_
    intro b item b' hitem
    exact hstep b item b' (List.mem_cons_of_mem _ hitem)

theorem forM_eq_ok_iff {items : List α} {check : α → Except ε Unit} :
    items.forM check = .ok () ↔ ∀ item ∈ items, check item = .ok () := by
  induction items with
  | nil => exact ⟨fun _ _ h ↦ absurd h List.not_mem_nil, fun _ ↦ rfl⟩
  | cons item rest ih =>
    have hcons : (item :: rest).forM check = (check item >>= fun _ ↦ rest.forM check) := rfl
    rw [hcons, check_bind_eq_ok_iff, ih, List.forall_mem_cons]

end RowAccess.Outcome
