import EdgeFields.Session
import Mathlib.Data.List.Forall2

/-!
# Outcomes

What a session leaves and answers, its notices apart.  The outcome of a sequence comes from the outcomes of its parts,
so that a session is run step by step.  Main statements: the outcome of each building block of sessions, and what
going through a list answers when every step succeeds.
-/

namespace EdgeFields

/-! ### Going through lists -/

section Except

variable {ε α β : Type}

@[simp] theorem ok_bind (a : α) (f : α → Except ε β) : ((.ok a : Except ε α) >>= f) = f a := rfl

@[simp] theorem error_bind (e : ε) (f : α → Except ε β) : ((.error e : Except ε α) >>= f) = .error e := rfl

@[simp] theorem pure_eq_ok (a : α) : (pure a : Except ε α) = .ok a := rfl

@[simp] theorem throw_eq_error (e : ε) : (throw e : Except ε α) = .error e := rfl

@[simp] theorem map_ok (f : α → β) (a : α) : (f <$> (.ok a : Except ε α)) = .ok (f a) := rfl

@[simp] theorem map_error (f : α → β) (e : ε) : (f <$> (.error e : Except ε α)) = .error e := rfl

theorem exists_of_bind_eq_ok {x : Except ε α} {f : α → Except ε β} {b : β} (h : (x >>= f) = .ok b) :
    ∃ a, x = .ok a ∧ f a = .ok b := by
  cases x with
  | error e => exact absurd h (by simp)
  | ok a => exact ⟨a, rfl, h⟩

theorem mapM_eq_ok {f : α → Except ε β} {g : α → β} {xs : List α} (h : ∀ x ∈ xs, f x = .ok (g x)) :
    xs.mapM f = .ok (xs.map g) := by
  induction xs with
  | nil => rfl
  | cons x xs ih =>
    have hx := h x (List.mem_cons_self ..)
    have hxs := ih fun y hy => h y (List.mem_cons_of_mem _ hy)
    rw [List.mapM_cons, hx, hxs]
    rfl

/-- Going through a list succeeds exactly if every step does. -/
theorem mapM_eq_ok_iff_forall₂ {f : α → Except ε β} {xs : List α} {ys : List β} :
    xs.mapM f = .ok ys ↔ List.Forall₂ (fun x y => f x = .ok y) xs ys := by
  induction xs generalizing ys with
  | nil => simp [eq_comm]
  | cons x xs ih =>
    rw [List.mapM_cons, List.forall₂_cons_left_iff]
    constructor
    · intro h
      obtain ⟨y, hy, h⟩ := exists_of_bind_eq_ok h
      obtain ⟨ys', hys, h⟩ := exists_of_bind_eq_ok h
      exact ⟨y, ys', hy, ih.1 hys, (Except.ok.inj h).symm⟩
    · rintro ⟨y, ys', hy, hys, rfl⟩
      rw [hy, ok_bind, ih.2 hys]
      rfl

theorem exists_mapM_eq_ok_iff {f : α → Except ε β} {xs : List α} :
    (∃ ys, xs.mapM f = .ok ys) ↔ ∀ x ∈ xs, ∃ y, f x = .ok y := by
  induction xs with
  | nil => simp
  | cons x xs ih =>
    rw [List.forall_mem_cons, ← ih, List.mapM_cons]
    cases f x with
    | error e => simp
    | ok y => cases xs.mapM f <;> simp

/-- Going through a list ends with the fault of one of its items. -/
theorem exists_of_mapM_eq_error {f : α → Except ε β} {xs : List α} {e : ε} (h : xs.mapM f = .error e) :
    ∃ x ∈ xs, f x = .error e := by
  induction xs with
  | nil => cases h
  | cons x xs ih =>
    rw [List.mapM_cons] at h
    cases hx : f x with
    | error e' =>
      rw [hx, error_bind] at h
      exact ⟨x, List.mem_cons_self .., Except.error.inj h ▸ hx⟩
    | ok y =>
      rw [hx, ok_bind] at h
      cases hxs : xs.mapM f with
      | error e' =>
        rw [hxs, error_bind] at h
        obtain ⟨z, hz, hfault⟩ := ih (Except.error.inj h ▸ hxs)
        exact ⟨z, List.mem_cons_of_mem _ hz, hfault⟩
      | ok ys =>
        rw [hxs] at h
        cases h

private theorem filterAuxM_eq_ok {p : α → Except ε Bool} {q : α → Bool} {xs : List α}
    (h : ∀ x ∈ xs, p x = .ok (q x)) (kept : List α) : xs.filterAuxM p kept = .ok ((xs.filter q).reverse ++ kept) := by
  induction xs generalizing kept with
  | nil => rfl
  | cons x xs ih =>
    have hx := h x (List.mem_cons_self ..)
    have hxs := ih fun y hy => h y (List.mem_cons_of_mem _ hy)
    rw [List.filterAuxM, hx, ok_bind, hxs]
    cases hq : q x <;> simp [hq]

theorem filterM_eq_ok {p : α → Except ε Bool} {q : α → Bool} {xs : List α} (h : ∀ x ∈ xs, p x = .ok (q x)) :
    xs.filterM p = .ok (xs.filter q) := by
  rw [List.filterM, filterAuxM_eq_ok h]
  simp

private theorem answered_of_filterAuxM_eq_ok {p : α → Except ε Bool} {xs kept acc : List α}
    (h : xs.filterAuxM p acc = .ok kept) : ∀ x ∈ xs, ∃ b, p x = .ok b := by
  induction xs generalizing acc with
  | nil => exact List.forall_mem_nil _
  | cons x xs ih =>
    rw [List.filterAuxM] at h
    obtain ⟨b, hb, h⟩ := exists_of_bind_eq_ok h
    exact List.forall_mem_cons.2 ⟨⟨b, hb⟩, ih h⟩

/-- A filter that goes well has an answer for every item. -/
theorem exists_of_filterM_eq_ok {p : α → Except ε Bool} {xs kept : List α} (h : xs.filterM p = .ok kept) :
    ∃ q : α → Bool, (∀ x ∈ xs, p x = .ok (q x)) ∧ kept = xs.filter q := by
  have hanswered : ∀ x ∈ xs, p x = .ok ((p x).toOption.getD false) := by
    rw [List.filterM] at h
    obtain ⟨rev, hrev, -⟩ := exists_of_bind_eq_ok h
    intro x hx
    obtain ⟨b, hb⟩ := answered_of_filterAuxM_eq_ok hrev x hx
    rw [hb]
    rfl
  refine ⟨_, hanswered, ?_⟩
  rw [filterM_eq_ok hanswered] at h
  exact (Except.ok.inj h).symm

end Except

namespace Report

variable {α β : Type}

@[simp] theorem result_map (f : α → β) (r : Report α) : (f <$> r).result = f <$> r.result := by
  rw [map_eq_pure_bind, result_bind, map_eq_pure_bind]
  rfl

theorem result_mapM (f : α → Report β) (xs : List α) :
    (xs.mapM f).result = xs.mapM fun x => (f x).result := by
  induction xs with
  | nil => rfl
  | cons x xs ih => simp only [List.mapM_cons, result_bind, result_pure, ih, pure_eq_ok]

/-- What every step through a list preserves holds at its end. -/
theorem of_result_foldlM {f : β → α → Report β} {P : β → Prop}
    (hf : ∀ b a b', P b → (f b a).result = .ok b' → P b') {xs : List α} {b b' : β} (hb : P b)
    (h : (xs.foldlM f b).result = .ok b') : P b' := by
  induction xs generalizing b with
  | nil =>
    have hbb' : b = b' := Except.ok.inj h
    exact hbb' ▸ hb
  | cons x xs ih =>
    rw [List.foldlM_cons, result_bind] at h
    obtain ⟨b₁, hb₁, h⟩ := exists_of_bind_eq_ok h
    exact ih (hf b x b₁ hb hb₁) h

end Report

namespace Session

variable {σ τ α β : Type}

/-- The state that a session leaves and its answer, without the notices. -/
def outcome (m : Session σ α) (s : σ) : σ × Except Fault α :=
  ((m s).1, (m s).2.result)

/-- What a session does after an outcome: nothing more after a fault. -/
def continueWith (f : α → Session σ β) : σ × Except Fault α → σ × Except Fault β
  | (s, .ok a) => (f a).outcome s
  | (s, .error e) => (s, .error e)

@[simp] theorem continueWith_ok (f : α → Session σ β) (s : σ) (a : α) :
    continueWith f (s, .ok a) = (f a).outcome s := rfl

@[simp] theorem continueWith_error (f : α → Session σ β) (s : σ) (e : Fault) :
    continueWith f (s, .error e) = (s, .error e) := rfl

@[simp] theorem outcome_pure (a : α) (s : σ) : (pure a : Session σ α).outcome s = (s, .ok a) := rfl

@[simp] theorem outcome_throw (e : Fault) (s : σ) : (throw e : Session σ α).outcome s = (s, .error e) := rfl

@[simp] theorem outcome_get (s : σ) : (get : Session σ σ).outcome s = (s, .ok s) := rfl

@[simp] theorem outcome_lift (x : Except Fault α) (s : σ) : (liftM x : Session σ α).outcome s = (s, x) := rfl

theorem outcome_on (get : σ → τ) (set : τ → σ → σ) (m : Session τ α) (s : σ) :
    (on get set m).outcome s = (set (m.outcome (get s)).1 s, (m.outcome (get s)).2) := rfl

@[simp] theorem outcome_lift_report (r : Report α) (s : σ) :
    (liftM r : Session σ α).outcome s = (s, r.result) := rfl

@[simp] theorem outcome_bind (m : Session σ α) (f : α → Session σ β) (s : σ) :
    (m >>= f).outcome s = continueWith f (m.outcome s) := by
  change ((andThen m f s).1, (andThen m f s).2.result) = continueWith f ((m s).1, (m s).2.result)
  rcases h : m s with ⟨s₁, ns, e | a⟩ <;> simp [andThen, h, outcome]

/-- A sequence that ends well goes well in both parts. -/
theorem exists_of_outcome_bind {m : Session σ α} {f : α → Session σ β} {s s' : σ} {b : β}
    (h : (m >>= f).outcome s = (s', .ok b)) :
    ∃ s₁ a, m.outcome s = (s₁, .ok a) ∧ (f a).outcome s₁ = (s', .ok b) := by
  rw [outcome_bind] at h
  rcases hm : m.outcome s with ⟨s₁, e | a⟩
  · rw [hm, continueWith_error] at h
    cases h
  · rw [hm, continueWith_ok] at h
    exact ⟨s₁, a, rfl, h⟩

theorem exists_of_outcome_lift_bind {x : Except Fault α} {f : α → Session σ β} {s s' : σ} {b : β}
    (h : ((liftM x : Session σ α) >>= f).outcome s = (s', .ok b)) :
    ∃ a, x = .ok a ∧ (f a).outcome s = (s', .ok b) := by
  obtain ⟨s₁, a, hlift, h⟩ := exists_of_outcome_bind h
  obtain ⟨rfl, hx⟩ := Prod.mk.inj hlift
  exact ⟨a, hx, h⟩

@[simp] theorem outcome_map (f : α → β) (m : Session σ α) (s : σ) :
    (f <$> m).outcome s = ((m.outcome s).1, f <$> (m.outcome s).2) := by
  rw [map_eq_pure_bind, outcome_bind]
  rcases m.outcome s with ⟨s₁, e | a⟩ <;> rfl

theorem outcome_forM_note (level : Level) (topic : Topic) (xs : List α) (s : σ) :
    (xs.forM fun _ => (Report.note level topic : Session σ Unit)).outcome s = (s, .ok ()) := by
  induction xs with
  | nil => rfl
  | cons x xs ih =>
    change ((liftM (Report.note level topic) : Session σ Unit) >>= fun _ =>
      xs.forM fun _ => (Report.note level topic : Session σ Unit)).outcome s = (s, .ok ())
    rw [outcome_bind, outcome_lift_report, Report.result_note, continueWith_ok]
    exact ih

/-- What follows a fault that is handled. -/
def handleWith (h : Fault → Session σ α) : σ × Except Fault α → σ × Except Fault α
  | (s, .ok a) => (s, .ok a)
  | (s, .error e) => (h e).outcome s

@[simp] theorem handleWith_ok (h : Fault → Session σ α) (s : σ) (a : α) :
    handleWith h (s, .ok a) = (s, .ok a) := rfl

@[simp] theorem handleWith_error (h : Fault → Session σ α) (s : σ) (e : Fault) :
    handleWith h (s, .error e) = (h e).outcome s := rfl

@[simp] theorem outcome_tryCatch (m : Session σ α) (h : Fault → Session σ α) (s : σ) :
    (tryCatch m h : Session σ α).outcome s = handleWith h (m.outcome s) := by
  rcases hm : m s with ⟨s₁, ns, e | a⟩ <;>
    simp [outcome, tryCatch, MonadExcept.tryCatch, handleWith, hm]

end Session

end EdgeFields
