/-! Computations that can fail, taken apart: when a mapped, a chained or a repeated one succeeds, and
with what. -/

namespace LabelTunnel.Outcome

variable {ε α β : Type}

instance decidableEqExcept [DecidableEq ε] [DecidableEq α] : DecidableEq (Except ε α)
  | .error e, .error e' => decidable_of_iff (e = e') ⟨congrArg _, Except.error.inj⟩
  | .ok a, .ok b => decidable_of_iff (a = b) ⟨congrArg _, Except.ok.inj⟩
  | .error _, .ok _ => isFalse nofun
  | .ok _, .error _ => isFalse nofun

theorem map_eq_ok_iff {f : α → β} {x : Except ε α} {b : β} :
    x.map f = .ok b ↔ ∃ a, x = .ok a ∧ f a = b := by
  cases x <;> simp [Except.map]

theorem map_eq_error_iff {f : α → β} {x : Except ε α} {e : ε} : x.map f = .error e ↔ x = .error e := by
  cases x <;> simp [Except.map]

theorem bind_eq_ok_iff {x : Except ε α} {f : α → Except ε β} {b : β} :
    (x >>= f) = .ok b ↔ ∃ a, x = .ok a ∧ f a = .ok b := by
  cases x <;> simp [bind, Except.bind]

theorem bind_eq_error_iff {x : Except ε α} {f : α → Except ε β} {e : ε} :
    (x >>= f) = .error e ↔ x = .error e ∨ ∃ a, x = .ok a ∧ f a = .error e := by
  cases x <;> simp [bind, Except.bind]

@[simp] theorem toOption_ok (a : α) : (Except.ok a : Except ε α).toOption = some a := rfl

@[simp] theorem mapError_ok {ε' : Type} (f : ε → ε') (a : α) : (Except.ok a).mapError f = .ok a := rfl

@[simp] theorem mapError_error {ε' : Type} (f : ε → ε') (e : ε) :
    (Except.error e : Except ε α).mapError f = .error (f e) := rfl

theorem mapError_eq_ok_iff {ε' : Type} {f : ε → ε'} {x : Except ε α} {a : α} :
    x.mapError f = .ok a ↔ x = .ok a := by
  cases x <;> simp

theorem mapError_eq_error_iff {ε' : Type} {f : ε → ε'} {x : Except ε α} {e : ε'} :
    x.mapError f = .error e ↔ ∃ cause, x = .error cause ∧ f cause = e := by
  cases x <;> simp

section Checked

variable {c : Prop} [Decidable c] {a : α} {e e' : ε}

theorem ite_error_eq_error_iff :
    (if c then .error e else .ok a : Except ε α) = .error e' ↔ c ∧ e' = e := by
  split
  · rename_i hc
    rw [Except.error.injEq, and_iff_right hc, eq_comm]
  · rename_i hc
    exact iff_of_false nofun fun h => hc h.1

theorem exists_ite_error_eq_ok_iff :
    (∃ b, (if c then .error e else .ok a : Except ε α) = .ok b) ↔ ¬c := by
  split
  · rename_i hc
    exact iff_of_false nofun (not_not_intro hc)
  · rename_i hc
    exact iff_of_true ⟨a, rfl⟩ hc

end Checked

@[simp] theorem ok_bind (a : α) (f : α → Except ε β) : (Except.ok a >>= f) = f a := rfl

/-- Two chains agree if their first parts fail alike and their results are taken up alike. -/
theorem bind_eq_bind {x y : Except ε α} {f g : α → Except ε β} (hfault : ∀ e, x = .error e ↔ y = .error e)
    (h : ∀ a b, x = .ok a → y = .ok b → f a = g b) : (x >>= f) = (y >>= g) := by
  cases x with
  | error e =>
      rw [(hfault e).1 rfl]
      rfl
  | ok a =>
      cases y with
      | error e => cases (hfault e).2 rfl
      | ok b => exact h a b rfl rfl

section Decided

variable {γ : Type} {x : Except ε α} {p : Prop} {a b : α} {e : ε} {fault : γ → ε}

/-- A condition that decides between one result and a kind of fault says exactly when there is a result. -/
theorem eq_ok_iff_of_decided (hok : p → x = .ok a) (herror : ¬p → ∃ cause, x = .error (fault cause)) :
    x = .ok b ↔ p ∧ b = a := by
  by_cases h : p
  · rw [hok h, Except.ok.injEq, and_iff_right h, eq_comm]
  · obtain ⟨cause, hcause⟩ := herror h
    simp [hcause, h]

theorem exists_fault_of_decided (hok : p → x = .ok a) (herror : ¬p → ∃ cause, x = .error (fault cause))
    (h : x = .error e) : ∃ cause, e = fault cause := by
  by_cases hp : p
  · cases (hok hp).symm.trans h
  · obtain ⟨cause, hcause⟩ := herror hp
    exact ⟨cause, Except.error.inj (h.symm.trans hcause)⟩

/-- If each of some cases settles a computation, and one of them is always there, the way it ends tells which. -/
theorem iff_of_cases {Good : α → Prop} {Bad : ε → Prop} (hok : ∀ a, Good a → x = .ok a)
    (herror : ∀ e, Bad e → x = .error e) (hcases : (∃ a, Good a) ∨ ∃ e, Bad e) :
    (∀ a, x = .ok a ↔ Good a) ∧ ∀ e, x = .error e ↔ Bad e := by
  rcases hcases with ⟨a, ha⟩ | ⟨e, he⟩
  · have hx := hok a ha
    refine ⟨fun b => ⟨?_, hok b⟩, fun e => ⟨?_, herror e⟩⟩
    · intro hb
      rwa [← Except.ok.inj (hx.symm.trans hb)]
    · intro h
      cases hx.symm.trans h
  · have hx := herror e he
    refine ⟨fun b => ⟨?_, hok b⟩, fun e' => ⟨?_, herror e'⟩⟩
    · intro hb
      cases hx.symm.trans hb
    · intro h
      rwa [← Except.error.inj (hx.symm.trans h)]

end Decided

theorem mapM_eq_ok_map {f : α → Except ε β} {g : α → β} {l : List α} (h : ∀ a ∈ l, f a = .ok (g a)) :
    l.mapM f = .ok (l.map g) := by
  induction l with
  | nil => rfl
  | cons a l ih =>
      rw [List.mapM_cons, h a List.mem_cons_self, ih fun b hb => h b (List.mem_cons_of_mem a hb)]
      rfl

theorem exists_ok_of_mapM_eq_ok {f : α → Except ε β} {l : List α} {bs : List β} (h : l.mapM f = .ok bs) :
    ∀ a ∈ l, ∃ b, f a = .ok b := by
  induction l generalizing bs with
  | nil => exact nofun
  | cons a l ih =>
      rw [List.mapM_cons] at h
      obtain ⟨b, hb, h⟩ := bind_eq_ok_iff.1 h
      obtain ⟨bs', hbs', -⟩ := bind_eq_ok_iff.1 h
      exact List.forall_mem_cons.2 ⟨⟨b, hb⟩, ih hbs'⟩

end LabelTunnel.Outcome
