import Mathlib.Logic.Basic

/-!
# Programs that ask their surroundings

A program asks questions, keeps a memory of its own, and returns or raises. Between two of its
questions the world moves on. `Safe` is what holds of a program whatever happens in between.
-/

namespace Programs

inductive Program (Query : Type) (Answer : Query → Type) (Memory Error α : Type)
  | done (result : Except Error α)
  | ask (query : Query) (next : Answer query → Program Query Answer Memory Error α)
  | load (next : Memory → Program Query Answer Memory Error α)
  | store (memory : Memory) (next : Program Query Answer Memory Error α)

variable {Query : Type} {Answer : Query → Type} {Memory Error α β : Type}

namespace Program

def bind : Program Query Answer Memory Error α → (α → Program Query Answer Memory Error β) →
    Program Query Answer Memory Error β
  | .done (.ok a), rest => rest a
  | .done (.error e), _ => .done (.error e)
  | .ask query next, rest => .ask query fun answer => (next answer).bind rest
  | .load next, rest => .load fun memory => (next memory).bind rest
  | .store memory next, rest => .store memory (next.bind rest)

instance : Monad (Program Query Answer Memory Error) where
  pure a := .done (.ok a)
  bind := bind

-- One step, with answers ready for whatever it asks
def step (answers : (query : Query) → Answer query) :
    Program Query Answer Memory Error α → Memory → Program Query Answer Memory Error α × Memory
  | .done result, memory => (.done result, memory)
  | .ask query next, memory => (next (answers query), memory)
  | .load next, memory => (next memory, memory)
  | .store memory next, _ => (next, memory)

def question : Program Query Answer Memory Error α → Option Query
  | .ask query _ => some query
  | _ => none

def isDone : Program Query Answer Memory Error α → Bool
  | .done _ => true
  | _ => false

end Program

def question (query : Query) : Program Query Answer Memory Error (Answer query) := .ask query fun a => .done (.ok a)
def getMemory : Program Query Answer Memory Error Memory := .load fun memory => .done (.ok memory)
def setMemory (memory : Memory) : Program Query Answer Memory Error Unit := .store memory (.done (.ok ()))
def raise (error : Error) : Program Query Answer Memory Error α := .done (.error error)
def orRaise : Except Error α → Program Query Answer Memory Error α := .done

/-! ## What holds of a program -/

-- How the world can move on, what it may answer, what an answer does to it, and what it asks of a
-- program before a question
structure Surroundings (Query : Type) (Answer : Query → Type) (World : Type) where
  later : World → World → Prop
  answers : World → (query : Query) → Answer query → Prop
  effect : World → (query : Query) → Answer query → World
  demand : World → Query → Prop

variable {World : Type} {around : Surroundings Query Answer World}

def Safe (around : Surroundings Query Answer World) (post : World → Memory → Except Error α → Prop) :
    Program Query Answer Memory Error α → World → Memory → Prop
  | .done result, world, memory => post world memory result
  | .ask query next, world, memory => ∀ now, around.later world now → around.demand now query ∧
      ∀ answer, around.answers now query answer → Safe around post (next answer) (around.effect now query answer) memory
  | .load next, world, memory => Safe around post (next memory) world memory
  | .store memory next, world, _ => Safe around post next world memory

variable {post weaker : World → Memory → Except Error α → Prop} {world : World} {memory : Memory}

theorem safe_mono {program : Program Query Answer Memory Error α}
    (implied : ∀ world memory result, post world memory result → weaker world memory result)
    (safe : Safe around post program world memory) : Safe around weaker program world memory := by
  induction program generalizing world memory with
  | done result => exact implied _ _ _ safe
  | ask query next ih =>
    intro now since
    obtain ⟨demanded, answered⟩ := safe now since
    exact ⟨demanded, fun answer right => ih answer (answered answer right)⟩
  | load next ih => exact ih memory safe
  | store memory next ih => exact ih safe

theorem safe_bind {program : Program Query Answer Memory Error α} {rest : α → Program Query Answer Memory Error β}
    {goal : World → Memory → Except Error β → Prop} (safe : Safe around post program world memory)
    (ok : ∀ world memory a, post world memory (.ok a) → Safe around goal (rest a) world memory)
    (error : ∀ world memory e, post world memory (.error e) → goal world memory (.error e)) :
    Safe around goal (program >>= rest) world memory := by
  induction program generalizing world memory with
  | done result =>
    cases result with
    | ok a => exact ok _ _ _ safe
    | error e => exact error _ _ _ safe
  | ask query next ih =>
    intro now since
    obtain ⟨demanded, answered⟩ := safe now since
    exact ⟨demanded, fun answer right => ih answer (answered answer right)⟩
  | load next ih => exact ih memory safe
  | store memory next ih => exact ih safe

-- What holds of a program goes on holding while the world moves on.
theorem safe_later (trans : ∀ {first second third}, around.later first second → around.later second third →
      around.later first third)
    (stable : ∀ {before after memory result}, around.later before after → post before memory result →
      post after memory result)
    {program : Program Query Answer Memory Error α} {after : World} (safe : Safe around post program world memory)
    (since : around.later world after) : Safe around post program after memory := by
  induction program generalizing memory with
  | done result => exact stable since safe
  | ask query next ih => exact fun now more => safe now (trans since more)
  | load next ih => exact ih memory safe
  | store memory next ih => exact ih safe

theorem safe_step {program : Program Query Answer Memory Error α} {answers : (query : Query) → Answer query}
    (refl : around.later world world) (safe : Safe around post program world memory)
    (right : ∀ query, program.question = some query → around.answers world query (answers query)) :
    Safe around post (program.step answers memory).1
      (match program.question with
        | some query => around.effect world query (answers query)
        | none => world) (program.step answers memory).2 := by
  cases program with
  | done result => exact safe
  | ask query next => exact (safe world refl).2 _ (right query rfl)
  | load next => exact safe
  | store memory next => exact safe

end Programs
