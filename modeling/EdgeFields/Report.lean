import EdgeFields.Fault

/-!
# Reports

A computation may write notices on its way, whether it succeeds or not.  A `Report` is what it answers together
with the notices, in order.  Main statements: how notices and results of a sequence come from those of its parts.
-/

namespace EdgeFields

/-- How much a notice matters. -/
inductive Level where
  | debug
  | info
  | warning
  | error
  deriving DecidableEq, Repr, Inhabited

/-- The activity that a notice tells about. -/
inductive Topic where
  | catalogue
  | fields
  | schema
  | edges
  | writes
  | batches
  | filters
  | settings
  deriving DecidableEq, Repr, Inhabited

/-- One notice. -/
structure Notice where
  level : Level
  topic : Topic
  deriving DecidableEq, Repr, Inhabited

/-- What a computation answers, and the notices it wrote. -/
structure Report (α : Type) where
  notices : List Notice
  result : Except Fault α
  deriving Inhabited

namespace Report

variable {α β : Type}

/-- An answer without notices. -/
def ok (a : α) : Report α := ⟨[], .ok a⟩

/-- A fault without notices. -/
def fail (f : Fault) : Report α := ⟨[], .error f⟩

/-- One computation after another; a fault ends both. -/
def andThen (r : Report α) (f : α → Report β) : Report β :=
  match r.result with
  | .error e => ⟨r.notices, .error e⟩
  | .ok a => ⟨r.notices ++ (f a).notices, (f a).result⟩

instance : Monad Report where
  pure := ok
  bind := andThen

instance : MonadExcept Fault Report where
  throw := fail
  tryCatch r h :=
    match r.result with
    | .error e => ⟨r.notices ++ (h e).notices, (h e).result⟩
    | .ok _ => r

instance : MonadLift (Except Fault) Report where
  monadLift r := ⟨[], r⟩

/-- The order in which a sequence of computations is bracketed does not matter. -/
theorem andThen_assoc {γ : Type} (r : Report α) (f : α → Report β) (g : β → Report γ) :
    (r.andThen f).andThen g = r.andThen fun a => (f a).andThen g := by
  obtain ⟨ns, e | a⟩ := r
  · rfl
  · rcases h : f a with ⟨ns', e | b⟩
    · simp [andThen, h]
    · simp [andThen, h, List.append_assoc]

instance : LawfulMonad Report :=
  LawfulMonad.mk' Report
    (fun r => by
      change r.andThen ok = r
      obtain ⟨ns, e | a⟩ := r <;> simp [andThen, ok])
    (fun a f => by
      change (ok a).andThen f = f a
      simp [andThen, ok])
    (fun r f g => andThen_assoc r f g)

/-- Writes a notice. -/
def note (level : Level) (topic : Topic) : Report Unit :=
  ⟨[⟨level, topic⟩], .ok ()⟩

@[simp] theorem result_pure (a : α) : (pure a : Report α).result = .ok a := rfl

@[simp] theorem notices_pure (a : α) : (pure a : Report α).notices = [] := rfl

@[simp] theorem result_bind (r : Report α) (f : α → Report β) :
    (r >>= f).result = r.result >>= fun a => (f a).result := by
  obtain ⟨ns, e | a⟩ := r <;> rfl

@[simp] theorem result_note (level : Level) (topic : Topic) : (note level topic).result = .ok () := rfl

@[simp] theorem result_lift (r : Except Fault α) : (liftM r : Report α).result = r := rfl

end Report

end EdgeFields
