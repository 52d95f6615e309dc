set_option autoImplicit false

namespace XmlDelta

variable {ε α β δ : Type}

theorem bind_eq_ok_iff {x : Except ε α} {f : α → Except ε β} {b : β} :
    x >>= f = .ok b ↔ ∃ a, x = .ok a ∧ f a = .ok b := by
  cases x with
  | error e => exact ⟨nofun, nofun⟩
  | ok a => exact ⟨fun h => ⟨a, rfl, h⟩, fun ⟨_, rfl, h⟩ => h⟩

theorem bind_eq_error_iff {x : Except ε α} {f : α → Except ε β} {e : ε} :
    x >>= f = .error e ↔ x = .error e ∨ ∃ a, x = .ok a ∧ f a = .error e := by
  cases x with
  | error e' =>
    refine ⟨fun h => .inl (congrArg _ (Except.error.inj h)), ?_⟩
    rintro (h | ⟨a, none, -⟩)
    · exact congrArg _ (Except.error.inj h)
    · cases none
  | ok a =>
    refine ⟨fun h => .inr ⟨a, rfl, h⟩, ?_⟩
    rintro (none | ⟨b, same, h⟩)
    · cases none
    · exact Except.ok.inj same ▸ h

section

variable {x : Except ε α} {Good : Prop} {Bad : ε → Prop} (good : Good → ∃ a, x = .ok a)
  (bad : ∀ e, Bad e → x = .error e) (either : Good ∨ ∃ e, Bad e)
include good bad either

theorem exists_ok_iff_of_either : (∃ a, x = .ok a) ↔ Good := by
  refine ⟨fun ⟨a, passed⟩ => either.resolve_right ?_, good⟩
  rintro ⟨e, reason⟩
  cases passed.symm.trans (bad e reason)

theorem error_iff_of_either {e : ε} : x = .error e ↔ Bad e := by
  refine ⟨fun refused => ?_, bad e⟩
  rcases either with reason | ⟨e', reason⟩
  · obtain ⟨a, passed⟩ := good reason
    cases refused.symm.trans passed
  · cases refused.symm.trans (bad e' reason)
    exact reason

end

section

variable {x : Except δ α} {f : δ → ε}

theorem mapError_eq_ok_iff {a : α} : x.mapError f = .ok a ↔ x = .ok a := by
  cases x with
  | error d => exact ⟨nofun, nofun⟩
  | ok b =>
    exact ⟨fun h => congrArg _ (Except.ok.inj h), fun h => congrArg _ (Except.ok.inj h)⟩

theorem mapError_eq_error_iff {e : ε} : x.mapError f = .error e ↔ ∃ d, x = .error d ∧ f d = e := by
  cases x with
  | error d =>
    refine ⟨fun h => ⟨d, rfl, Except.error.inj h⟩, ?_⟩
    rintro ⟨d', same, h⟩
    exact congrArg _ (Except.error.inj same ▸ h)
  | ok b => exact ⟨nofun, nofun⟩

end

end XmlDelta
