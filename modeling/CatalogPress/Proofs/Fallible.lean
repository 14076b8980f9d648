import Mathlib.Data.List.Forall2

/-!
When computations that can fail succeed: a sequence if each of its steps does, a mapped one if it
does itself, and one for each element of a list if all of them do.
-/
namespace CatalogPress.Fallible
variable {ε ε' α β : Type}

theorem bind_eq_ok {x : Except ε α} {f : α → Except ε β} {b : β} :
    x >>= f = .ok b ↔ ∃ a, x = .ok a ∧ f a = .ok b := by
  cases x <;> simp [bind, Except.bind]

theorem bind_eq_error {x : Except ε α} {f : α → Except ε β} {error : ε} :
    x >>= f = .error error ↔ x = .error error ∨ ∃ a, x = .ok a ∧ f a = .error error := by
  cases x <;> simp [bind, Except.bind]

theorem mapError_eq_ok {x : Except ε α} {f : ε → ε'} {a : α} :
    x.mapError f = .ok a ↔ x = .ok a := by
  cases x with
  | error error => exact ⟨nofun, nofun⟩
  | ok value =>
    change (.ok value : Except ε' α) = .ok a ↔ _
    rw [Except.ok.injEq, Except.ok.injEq]

theorem map_eq_ok {x : Except ε α} {f : α → β} {b : β} :
    x.map f = .ok b ↔ ∃ a, x = .ok a ∧ f a = b := by
  cases x <;> simp [Except.map]

theorem map_eq_error {x : Except ε α} {f : α → β} {error : ε} : x.map f = .error error ↔
    x = .error error := by
  cases x <;> simp [Except.map]

theorem exists_of_isOk {x : Except ε α} (h : x.isOk = true) : ∃ a, x = .ok a := by
  cases x with
  | error error => cases h
  | ok a => exact ⟨a, rfl⟩

theorem exists_of_any {x : Except ε α} {p : α → Bool} (h : x.toOption.any p = true) :
    ∃ a, x = .ok a ∧ p a = true := by
  cases x with
  | error error => cases h
  | ok a => exact ⟨a, rfl, h⟩

theorem exists_error_iff {x : Except ε α} : (∃ error, x = .error error) ↔ ¬ ∃ a, x = .ok a := by
  cases x <;> simp

theorem mapM_eq_ok_iff {f : α → Except ε β} {list : List α} {results : List β} :
    list.mapM f = .ok results ↔ List.Forall₂ (fun a b => f a = .ok b) list results := by
  induction list generalizing results with
  | nil =>
    rw [List.mapM_nil, List.forall₂_nil_left_iff, eq_comm (a := results)]
    change (.ok [] : Except ε (List β)) = .ok results ↔ _
    rw [Except.ok.injEq]
  | cons a list ih =>
    rw [List.mapM_cons, bind_eq_ok]
    simp only [bind_eq_ok, ih, List.forall₂_cons_left_iff]
    constructor
    · rintro ⟨b, hb, rest, hrest, h⟩
      cases h
      exact ⟨b, rest, hb, hrest, rfl⟩
    · rintro ⟨b, rest, hb, hrest, rfl⟩
      exact ⟨b, hb, rest, hrest, rfl⟩

theorem exists_of_mapM_eq_error {f : α → Except ε β} {list : List α} {error : ε}
    (h : list.mapM f = .error error) :
    ∃ a ∈ list, f a = .error error := by
  induction list with
  | nil => cases h
  | cons a list ih =>
    rw [List.mapM_cons, bind_eq_error] at h
    obtain h | ⟨b, -, h⟩ := h
    · exact ⟨a, List.mem_cons_self, h⟩
    · obtain h | ⟨_, -, h⟩ := bind_eq_error.mp h
      · obtain ⟨other, hother, heq⟩ := ih h
        exact ⟨other, List.mem_cons_of_mem a hother, heq⟩
      · cases h

def FailsWith (p : ε → Prop) (x : Except ε α) : Prop :=
  ∀ error, x = .error error → p error

theorem failsWith_ok {p : ε → Prop} {a : α} : FailsWith p (.ok a : Except ε α) := nofun

theorem failsWith_error {p : ε → Prop} {error : ε} : FailsWith p (.error error : Except ε α) ↔
    p error := by
  simp [FailsWith]

theorem failsWith_iff {p : ε → Prop} {x : Except ε α} :
    FailsWith p x ↔ (∃ a, x = .ok a) ∨ ∃ error, x = .error error ∧ p error := by
  cases x <;> simp [FailsWith]

theorem failsWith_exists_iff {wrap : ε' → ε} {x : Except ε α} :
    FailsWith (fun failure => ∃ error, failure = wrap error) x ↔
      (∃ a, x = .ok a) ∨ ∃ error, x = .error (wrap error) := by
  rw [failsWith_iff]
  refine or_congr_right ?_
  constructor
  · rintro ⟨_, h, error, rfl⟩
    exact ⟨error, h⟩
  · rintro ⟨error, h⟩
    exact ⟨_, h, error, rfl⟩

theorem failsWith_bind {p : ε → Prop} {x : Except ε α} {f : α → Except ε β} :
    FailsWith p (x >>= f) ↔ FailsWith p x ∧ ∀ a, x = .ok a → FailsWith p (f a) := by
  cases x <;> simp [FailsWith, bind, Except.bind]

theorem failsWith_mapError {p : ε' → Prop} {x : Except ε α} {f : ε → ε'} :
    FailsWith p (x.mapError f) ↔ FailsWith (fun error => p (f error)) x := by
  cases x <;> simp [FailsWith, Except.mapError]

theorem failsWith_map {p : ε → Prop} {x : Except ε α} {f : α → β} : FailsWith p (x.map f) ↔
    FailsWith p x := by
  cases x <;> simp [FailsWith, Except.map]

theorem foldlM_eq_error_iff {σ : Type} {f : σ → α → Except ε σ}
    {list : List α} {start : σ} {error : ε} :
    list.foldlM f start = .error error ↔ ∃ before a after state, list = before ++ a :: after ∧
      before.foldlM f start = .ok state ∧ f state a = .error error := by
  constructor
  · intro h
    induction list generalizing start with
    | nil => cases h
    | cons a list ih =>
      rw [List.foldlM_cons] at h
      cases hstep : f start a with
      | error error' =>
        rw [hstep] at h
        cases h
        exact ⟨[], a, list, start, rfl, rfl, hstep⟩
      | ok next =>
        rw [hstep] at h
        obtain ⟨before, last, after, state, rfl, hbefore, hlast⟩ := ih h
        refine ⟨a :: before, last, after, state, rfl, ?_, hlast⟩
        rw [List.foldlM_cons, hstep]
        exact hbefore
  · rintro ⟨before, a, after, state, rfl, hbefore, hstep⟩
    rw [List.foldlM_append, hbefore]
    change (List.foldlM f state (a :: after)) = _
    rw [List.foldlM_cons, hstep]
    rfl

theorem forall₂_filter {R : α → β → Prop} (p : α → Bool) {as : List α} {bs : List β}
    (h : List.Forall₂ R as bs) :
    List.Forall₂ R (as.filter p) (((as.zip bs).filter (p ·.1)).map (·.2)) := by
  induction h with
  | nil => exact .nil
  | @cons a b as bs hhead _ ih =>
    cases hp : p a with
    | false => simpa [hp] using ih
    | true => simpa [hp] using And.intro hhead ih

theorem mapM_congr_forall₂ {γ : Type} {f : α → Except ε γ} {g : β → Except ε γ}
    {as : List α} {bs : List β} (h : List.Forall₂ (fun a b => f a = g b) as bs) :
    as.mapM f = bs.mapM g := by
  induction h with
  | nil => rfl
  | cons hhead _ ih => rw [List.mapM_cons, List.mapM_cons, hhead, ih]

theorem forall₂_and_eq_iff {p : α → Prop} {f : α → β} {as : List α} {bs : List β} :
    List.Forall₂ (fun a b => p a ∧ f a = b) as bs ↔ (∀ a ∈ as, p a) ∧ as.map f = bs := by
  rw [List.forall₂_and_left, ← List.forall₂_map_left_iff, List.forall₂_eq_eq_eq]

theorem forall₂_imp_of_mem {R S : α → β → Prop} {as : List α} {bs : List β}
    (h : List.Forall₂ R as bs) (himp : ∀ a ∈ as, ∀ b ∈ bs, R a b → S a b) :
    List.Forall₂ S as bs := by
  induction h with
  | nil => exact .nil
  | @cons a b as bs hhead _ ih =>
    refine .cons (himp a List.mem_cons_self b List.mem_cons_self hhead) (ih fun a ha b hb => ?_)
    exact himp a (List.mem_cons_of_mem _ ha) b (List.mem_cons_of_mem _ hb)

theorem exists_of_forall₂ {R : α → β → Prop} {as : List α} {bs : List β}
    (h : List.Forall₂ R as bs) :
    ∀ b ∈ bs, ∃ a ∈ as, R a b := by
  induction h with
  | nil => exact nofun
  | cons hab _ ih =>
    refine List.forall_mem_cons.mpr ⟨⟨_, List.mem_cons_self, hab⟩, fun b hb => ?_⟩
    obtain ⟨a, ha, hR⟩ := ih b hb
    exact ⟨a, List.mem_cons_of_mem _ ha, hR⟩

theorem exists_of_forall₂_left {R : α → β → Prop} {as : List α} {bs : List β}
    (h : List.Forall₂ R as bs) :
    ∀ a ∈ as, ∃ b ∈ bs, R a b :=
  exists_of_forall₂ h.flip

theorem exists_forall₂_iff {R : α → β → Prop} {as : List α} :
    (∃ bs, List.Forall₂ R as bs) ↔ ∀ a ∈ as, ∃ b, R a b := by
  induction as with
  | nil => simp
  | cons a as ih =>
    rw [List.forall_mem_cons, ← ih]
    constructor
    · rintro ⟨bs, h⟩
      cases h with
      | cons hhead htail => exact ⟨⟨_, hhead⟩, ⟨_, htail⟩⟩
    · rintro ⟨⟨b, hhead⟩, ⟨bs, htail⟩⟩
      exact ⟨b :: bs, .cons hhead htail⟩

end CatalogPress.Fallible
