import Mathlib

/-!
# Checked computations

`Except` computations written as a sequence of checks. Each lemma turns a successful run of a
combinator into the facts its checks established.
-/

namespace RabbitLqc.Lib

variable {ε α β : Type}

variable {x : Except ε α} {f : α → Except ε β} {b : β} {a : α} {condition : Prop} {error e : ε} {u : Unit}
  {items : List α} {results : List β} {g : α → β}

/-- Stop with `error` unless `condition` holds. -/
def ensure (condition : Prop) [Decidable condition] (error : ε) : Except ε Unit :=
  if condition then .ok () else .error error

theorem bind_ok (h : (x >>= f) = .ok b) : ∃ a, x = .ok a ∧ f a = .ok b := by
  cases x with
  | error e => cases h
  | ok a => exact ⟨a, rfl, h⟩

@[simp] theorem bind_ok_iff : (x >>= f) = .ok b ↔ ∃ a, x = .ok a ∧ f a = .ok b := by
  refine ⟨bind_ok, fun steps => ?_⟩
  obtain ⟨a, run, rest⟩ := steps
  rw [run]
  exact rest

@[simp] theorem pure_ok_iff {b : α} : (pure a : Except ε α) = .ok b ↔ a = b :=
  ⟨Except.ok.inj, congrArg _⟩

@[simp] theorem ensure_ok_iff [Decidable condition] : ensure condition error = .ok u ↔ condition := by
  unfold ensure
  split <;> simp_all

theorem bind_error_iff : (x >>= f) = .error e ↔ x = .error e ∨ ∃ a, x = .ok a ∧ f a = .error e := by
  cases x with
  | error error => simp [Bind.bind, Except.bind]
  | ok a => simp [Bind.bind, Except.bind]

theorem ensure_error_iff [Decidable condition] : ensure condition error = .error e ↔ ¬ condition ∧ error = e := by
  unfold ensure
  split <;> simp_all

@[simp] theorem exists_unit {p : Unit → Prop} : (∃ u, p u) ↔ p () := by
  refine ⟨fun found => ?_, fun h => ⟨(), h⟩⟩
  obtain ⟨u, h⟩ := found
  cases u
  exact h

theorem ensure_bind_ok_iff [Decidable condition] {f : Unit → Except ε β} :
    (ensure condition error >>= f) = .ok b ↔ condition ∧ f () = .ok b := by
  rw [bind_ok_iff, exists_unit, ensure_ok_iff]

/-- The value, or `error` where there is none. -/
def orFail (error : ε) : Option α → Except ε α
  | none => .error error
  | some a => .ok a

@[simp] theorem orFail_ok_iff {x : Option α} : orFail error x = .ok a ↔ x = some a := by
  cases x <;> simp [orFail]

/-- Whatever went wrong, report `error`. -/
def failAs {δ : Type} (error : ε) : Except δ α → Except ε α
  | .error _ => .error error
  | .ok a => .ok a

@[simp] theorem failAs_ok_iff {δ : Type} {x : Except δ α} : failAs error x = .ok a ↔ x = .ok a := by
  cases x <;> simp [failAs]

theorem exists_error_iff : (∃ e, x = .error e) ↔ ¬ ∃ a, x = .ok a := by
  cases x <;> simp

theorem exists_ok_of_isOk (h : x.isOk = true) : ∃ a, x = .ok a := by
  cases x with
  | error e => cases h
  | ok a => exact ⟨a, rfl⟩

theorem exists_ok_of_any {p : α → Prop} [DecidablePred p] (h : x.toOption.any (fun a => decide (p a)) = true) :
    ∃ a, x = .ok a ∧ p a := by
  cases x with
  | error e => cases h
  | ok a => exact ⟨a, rfl, of_decide_eq_true h⟩

theorem forM_ok_iff {f : α → Except ε Unit} : items.forM f = .ok u ↔ ∀ item ∈ items, f item = .ok () := by
  induction items with
  | nil => simp [List.forM, pure, Except.pure]
  | cons item rest ih =>
    rw [show (item :: rest).forM f = (f item >>= fun _ => rest.forM f) from rfl, bind_ok_iff,
      exists_unit, List.forall_mem_cons, ih]

theorem mapM_ok_iff :
    items.mapM f = .ok results ↔ List.Forall₂ (fun item result => f item = .ok result) items results := by
  induction items generalizing results with
  | nil => rw [List.mapM_nil, pure_ok_iff, List.forall₂_nil_left_iff, eq_comm]
  | cons item rest ih =>
    simp only [List.mapM_cons, bind_ok_iff, pure_ok_iff]
    constructor
    · rintro ⟨head, run, tail, more, rfl⟩
      exact .cons run (ih.mp more)
    · rintro (_ | ⟨run, more⟩)
      exact ⟨_, run, _, ih.mpr more, rfl⟩

theorem mapM_eq_map (each : ∀ item ∈ items, f item = .ok (g item)) : items.mapM f = .ok (items.map g) := by
  rw [mapM_ok_iff, List.forall₂_map_right_iff, List.forall₂_same]
  exact each

theorem mapM_ok_mem (run : items.mapM f = .ok results) {item : α} (member : item ∈ items) :
    ∃ result, f item = .ok result := by
  have steps := mapM_ok_iff.mp run
  clear run
  induction steps with
  | nil => cases member
  | cons step _ ih =>
    obtain rfl | later := List.mem_cons.mp member
    · exact ⟨_, step⟩
    · exact ih later

theorem mapM_ok_map_iff {condition : α → Prop}
    (each : ∀ item ∈ items, ∀ result, f item = .ok result ↔ condition item ∧ g item = result) :
    items.mapM f = .ok results ↔ (∀ item ∈ items, condition item) ∧ items.map g = results := by
  constructor
  · intro run
    have holds : ∀ item ∈ items, condition item := by
      intro item member
      obtain ⟨result, step⟩ := mapM_ok_mem run member
      exact ((each item member result).mp step).1
    have mapped := mapM_eq_map fun item member => (each item member (g item)).mpr ⟨holds item member, rfl⟩
    exact ⟨holds, Except.ok.inj (mapped.symm.trans run)⟩
  · intro given
    obtain ⟨holds, rfl⟩ := given
    exact mapM_eq_map fun item member => (each item member (g item)).mpr ⟨holds item member, rfl⟩

theorem mapM_eq_some_map {f : α → Option β} (each : ∀ item ∈ items, f item = some (g item)) :
    items.mapM f = some (items.map g) := by
  induction items with
  | nil => rfl
  | cons item rest ih =>
    rw [List.mapM_cons, each item List.mem_cons_self, ih fun other member => each other (List.mem_cons_of_mem _ member)]
    rfl

theorem foldlM_checked {check : α → Except ε Unit} {step : β → α → β} {start : β} :
    items.foldlM (fun state item => check item >>= fun _ => .ok (step state item)) start =
      (items.forM check >>= fun _ => .ok (items.foldl step start)) := by
  induction items generalizing start with
  | nil => rfl
  | cons item rest ih =>
    rw [List.foldlM_cons, show (item :: rest).forM check = (check item >>= fun _ => rest.forM check) from rfl]
    cases check item with
    | error e => rfl
    | ok u => exact ih

theorem foldlM_ok_rel (R : β → β → Prop) (refl : ∀ b, R b b) (trans : ∀ {a b c}, R a b → R b c → R a c)
    {f : β → α → Except ε β} (step : ∀ {before item after}, f before item = .ok after → R before after)
    {before after : β} (h : items.foldlM f before = .ok after) : R before after := by
  induction items generalizing before with
  | nil =>
    rw [List.foldlM_nil, pure_ok_iff] at h
    exact h ▸ refl before
  | cons item rest ih =>
    rw [List.foldlM_cons] at h
    obtain ⟨middle, first, h⟩ := bind_ok h
    exact trans (step first) (ih h)

end RabbitLqc.Lib
