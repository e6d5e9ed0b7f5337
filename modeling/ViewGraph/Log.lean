/-!
# Logged computations

A computation that may fail, with the entries it logs. What was logged before a failure is kept.

* `Logged.log`: adds one entry.
* `Logged.collect`: goes through a list with a state, and strings together what the items give.
* `entries_bind`: the entries of a sequence are those of its parts, up to the first failure.
* `outcome_bind`: the outcome of a sequence does not depend on what was logged.
-/

namespace ViewGraph

/-- The level of an entry; the higher, the more severe. -/
abbrev Level := Int

namespace Level

def debug : Level := 10
def info : Level := 20
def warning : Level := 30
def error : Level := 40
def critical : Level := 50

end Level

/-- One entry of the log. -/
structure LogEntry where
  level : Level
  logger : String
  message : String
deriving DecidableEq

/-- The entries that were logged, and the outcome. -/
structure Logged (ε α : Type) where
  entries : List LogEntry
  outcome : Except ε α

namespace Logged

variable {ε α β : Type}

def ok (a : α) : Logged ε α := ⟨[], .ok a⟩

def fail (e : ε) : Logged ε α := ⟨[], .error e⟩

def ofExcept (r : Except ε α) : Logged ε α := ⟨[], r⟩

/-- Adds some entries. -/
def tell (entries : List LogEntry) : Logged ε Unit := ⟨entries, .ok ()⟩

/-- Adds one entry. -/
def log (level : Level) (logger message : String) : Logged ε Unit := tell [⟨level, logger, message⟩]

def bind (x : Logged ε α) (f : α → Logged ε β) : Logged ε β :=
  match x.outcome with
  | .ok a => ⟨x.entries ++ (f a).entries, (f a).outcome⟩
  | .error e => ⟨x.entries, .error e⟩

instance : Monad (Logged ε) where
  pure := ok
  bind := bind

/-- The same computation with another type of failure. -/
def mapError {δ : Type} (f : ε → δ) (x : Logged ε α) : Logged δ α :=
  ⟨x.entries, x.outcome.mapError f⟩

/-- A sequence succeeds if both of its parts do. -/
theorem bind_eq_ok {x : Except ε α} {f : α → Except ε β} {b : β} :
    x >>= f = .ok b ↔ ∃ a, x = .ok a ∧ f a = .ok b := by
  cases x <;> simp [Bind.bind, Except.bind]

/-- A sequence fails if its first part does, or else its second one. -/
theorem bind_eq_error {x : Except ε α} {f : α → Except ε β} {e : ε} :
    x >>= f = .error e ↔ x = .error e ∨ ∃ a, x = .ok a ∧ f a = .error e := by
  cases x <;> simp [Bind.bind, Except.bind]

theorem entries_bind (x : Logged ε α) (f : α → Logged ε β) :
    (x >>= f).entries = match x.outcome with
      | .ok a => x.entries ++ (f a).entries
      | .error _ => x.entries := by
  cases h : x.outcome <;> simp [Bind.bind, bind, h]

@[simp] theorem outcome_bind (x : Logged ε α) (f : α → Logged ε β) :
    (x >>= f).outcome = x.outcome >>= fun a => (f a).outcome := by
  cases h : x.outcome <;> simp [Bind.bind, bind, h, Except.bind]

@[simp] theorem outcome_pure (a : α) : (pure a : Logged ε α).outcome = pure a := rfl

@[simp] theorem outcome_ofExcept (r : Except ε α) : (ofExcept r).outcome = r := rfl

@[simp] theorem outcome_tell (entries : List LogEntry) :
    (tell entries : Logged ε Unit).outcome = pure () := rfl

/-- Goes through a list from left to right with a state, and strings together what the items
give. -/
def collect {σ : Type} (one : σ → α → Logged ε (List β × σ)) :
    σ → List α → Logged ε (List β × σ)
  | s, [] => return ([], s)
  | s, a :: rest => do
    let (bs, s) ← one s a
    let (more, s) ← collect one s rest
    return (bs ++ more, s)

@[simp] theorem outcome_collect_nil {σ : Type} (one : σ → α → Logged ε (List β × σ)) (s : σ) :
    (collect one s []).outcome = pure ([], s) := rfl

@[simp] theorem outcome_collect_cons {σ : Type} (one : σ → α → Logged ε (List β × σ)) (s : σ)
    (a : α) (rest : List α) :
    (collect one s (a :: rest)).outcome = do
      let (bs, s) ← (one s a).outcome
      let (more, s) ← (collect one s rest).outcome
      return (bs ++ more, s) := by
  simp [collect]

end Logged

end ViewGraph
