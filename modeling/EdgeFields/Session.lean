import EdgeFields.Report

/-!
# Sessions

A computation on a state that stays changed even when the computation fails later: `Session σ α` takes a state to
a new state and a report.
-/

namespace EdgeFields

/-- A computation that changes a state of type `σ` and reports an `α`. -/
def Session (σ α : Type) := σ → σ × Report α

namespace Session

variable {σ τ α β : Type}

/-- Runs a session from a state. -/
def run (m : Session σ α) (s : σ) : σ × Report α := m s

/-- One session after another; a fault ends both, and what was changed until then stays. -/
def andThen (m : Session σ α) (f : α → Session σ β) : Session σ β := fun s =>
  let (s₁, r) := m s
  match r.result with
  | .error e => (s₁, ⟨r.notices, .error e⟩)
  | .ok a =>
    let (s₂, r₂) := f a s₁
    (s₂, ⟨r.notices ++ r₂.notices, r₂.result⟩)

instance : Monad (Session σ) where
  pure a := fun s => (s, pure a)
  bind := andThen

instance : LawfulMonad (Session σ) :=
  LawfulMonad.mk' (Session σ)
    (fun m => by
      funext s
      change andThen m (fun a s => (s, Report.ok a)) s = m s
      rcases h : m s with ⟨s₁, ns, e | a⟩ <;> simp [andThen, h, Report.ok])
    (fun a f => by
      funext s
      change andThen (fun s => (s, Report.ok a)) f s = f a s
      simp [andThen, Report.ok])
    (fun m f g => by
      funext s
      change andThen (andThen m f) g s = andThen m (fun a => andThen (f a) g) s
      rcases h : m s with ⟨s₁, ns, e | a⟩
      · simp [andThen, h]
      · rcases h' : f a s₁ with ⟨s₂, ns', e | b⟩ <;> simp [andThen, h, h'])

instance : MonadExcept Fault (Session σ) where
  throw e := fun s => (s, throw e)
  tryCatch m h := fun s =>
    let (s₁, r) := m s
    match r.result with
    | .error e =>
      let (s₂, r₂) := h e s₁
      (s₂, ⟨r.notices ++ r₂.notices, r₂.result⟩)
    | .ok _ => (s₁, r)

instance : MonadStateOf σ (Session σ) where
  get := fun s => (s, pure s)
  set s := fun _ => (s, pure ())
  modifyGet f := fun s => let (a, s') := f s; (s', pure a)

instance : MonadLift Report (Session σ) where
  monadLift r := fun s => (s, r)

instance : MonadLift (Except Fault) (Session σ) where
  monadLift r := fun s => (s, ⟨[], r⟩)

@[simp] theorem run_pure (a : α) (s : σ) : (pure a : Session σ α).run s = (s, pure a) := rfl

@[simp] theorem run_throw (e : Fault) (s : σ) : (throw e : Session σ α).run s = (s, throw e) := rfl

@[simp] theorem run_get (s : σ) : (get : Session σ σ).run s = (s, pure s) := rfl

@[simp] theorem run_modify (f : σ → σ) (s : σ) : (modify f : Session σ Unit).run s = (f s, pure ()) := rfl

/-- Runs a session on a part of the state. -/
def on (get : σ → τ) (set : τ → σ → σ) (m : Session τ α) : Session σ α := fun s =>
  let (t, r) := m (get s)
  (set t s, r)

end Session

end EdgeFields
