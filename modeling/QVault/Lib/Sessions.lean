import QVault.Lib.Programs
import QVault.Lib.Runs
import Mathlib.Logic.Relation

/-!
# Sessions on a shared store

A session is a program whose questions are statements on a store all sessions share, with a memory of
its own. A statement may have to wait; then it reads the store as it is and leaves it as it says. In a
run the statements of all sessions come in any order, sessions start and are cut off, and the outside
changes the store.
-/

namespace Sessions
open Programs Relation

structure Statement (Store : Type) where
  ready : Store → Bool
  write : Store → Store

abbrev Session (Store Memory Error α : Type) := Program (Statement Store) (fun _ => Store) Memory Error α

variable {Store Memory Error Operation World α β : Type}

def look : Session Store Memory Error Store := question ⟨fun _ => true, id⟩

-- Errors become results.
def attempt : Session Store Memory Error α → Session Store Memory Error (Except Error α)
  | .done result => .done (.ok result)
  | .ask statement next => .ask statement fun answer => attempt (next answer)
  | .load next => .load fun memory => attempt (next memory)
  | .store memory next => .store memory (attempt next)

structure System (Store Memory Error : Type) where
  store : Store
  sessions : List (Session Store Memory Error Unit × Memory)

inductive Move (Operation World : Type)
  | start (operation : Operation)
  | proceed (index : Nat)
  | abort (index : Nat)
  | outside (change : World)

structure Setup (Store Memory Error Operation World : Type) where
  memory : Memory
  launch : Nat → Operation → Session Store Memory Error Unit
  release : Nat → Store → Store
  outside : World → Store → Store

namespace System

def proceed (system : System Store Memory Error) (index : Nat) (session : Session Store Memory Error Unit × Memory) :
    System Store Memory Error :=
  let after := session.1.step (fun _ => system.store) session.2
  match session.1.question with
  | some statement =>
    if statement.ready system.store then ⟨statement.write system.store, system.sessions.set index after⟩ else system
  | none => { system with sessions := system.sessions.set index after }

def step (setup : Setup Store Memory Error Operation World) (system : System Store Memory Error) :
    Move Operation World → System Store Memory Error
  | .start operation =>
    { system with sessions := system.sessions ++ [(setup.launch system.sessions.length operation, setup.memory)] }
  | .proceed index =>
    match system.sessions[index]? with
    | some session => system.proceed index session
    | none => system
  | .abort index => ⟨setup.release index system.store, system.sessions.set index (.done (.ok ()), setup.memory)⟩
  | .outside change => { system with store := setup.outside change system.store }

end System

/-! ## What one session may rely on -/

-- `may who before after`: what the session `who`, or the outside if `none`, may do to the store
section Rely
variable (inv : Store → Prop) (may : Option Nat → Store → Store → Prop)

def Interferes (me : Nat) (before after : Store) : Prop := inv after ∧ ∃ who, who ≠ some me ∧ may who before after

def around (me : Nat) : Surroundings (Statement Store) (fun _ => Store) Store where
  later before after := inv after ∧ ReflTransGen (Interferes inv may me) before after
  answers now statement answer := statement.ready now = true ∧ answer = now
  effect now statement _ := statement.write now
  demand now statement :=
    statement.ready now = true → inv (statement.write now) ∧ may (some me) now (statement.write now)

-- What a session relies on may be its own affair.
structure SoundFor (inv : Store → Prop) (may : Nat → Option Nat → Store → Store → Prop)
    (system : System Store Memory Error) : Prop where
  holds : inv system.store
  safe : ∀ index session, system.sessions[index]? = some session →
    Safe (around inv (may index) index) (fun _ _ _ => True) session.1 system.store session.2

abbrev Sound (system : System Store Memory Error) : Prop := SoundFor inv (fun _ => may) system

end Rely

section Run
variable {inv : Store → Prop} {may : Option Nat → Store → Store → Prop}

theorem later_trans {me : Nat} {first second third : Store} (one : (around inv may me).later first second)
    (two : (around inv may me).later second third) : (around inv may me).later first third :=
  ⟨two.1, one.2.trans two.2⟩

theorem later_of_may {me : Nat} {who : Option Nat} {before after : Store} (other : who ≠ some me) (holds : inv after)
    (done : may who before after) : (around inv may me).later before after :=
  ⟨holds, ReflTransGen.single ⟨holds, who, other, done⟩⟩

-- Every other session stays safe when one writes.
theorem safe_after {who : Option Nat} {index : Nat} {session : Session Store Memory Error Unit} {memory : Memory}
    {before after : Store} (safe : Safe (around inv may index) (fun _ _ _ => True) session before memory)
    (other : who ≠ some index) (holds : inv after) (done : may who before after) :
    Safe (around inv may index) (fun _ _ _ => True) session after memory :=
  safe_later later_trans (fun _ _ => trivial) safe (later_of_may other holds done)

-- Who takes a step
def actor : Move Operation World → Option Nat
  | .proceed index | .abort index => some index
  | .start _ | .outside _ => none

-- The sessions under way may see this step.
def Spared (may : Nat → Option Nat → Store → Store → Prop) (who : Option Nat) (system : System Store Memory Error)
    (after : Store) : Prop :=
  ∀ other session, system.sessions[other]? = some session → session.1.isDone = false → who ≠ some other →
    may other who system.store after

theorem safe_spared {mays : Nat → Option Nat → Store → Store → Prop} {who : Option Nat} {system : System Store Memory Error}
    {after : Store} {other : Nat} {session : Session Store Memory Error Unit × Memory} (sound : SoundFor inv mays system)
    (spared : Spared mays who system after) (listed : system.sessions[other]? = some session) (different : who ≠ some other)
    (holds : inv after) : Safe (around inv (mays other) other) (fun _ _ _ => True) session.1 after session.2 := by
  cases finished : session.1.isDone with
  | false => exact safe_after (sound.safe other session listed) different holds (spared other session listed finished different)
  | true =>
    obtain ⟨program, memory⟩ := session
    cases program with
    | done result => trivial
    | _ => cases finished

variable {setup : Setup Store Memory Error Operation World}

structure DisciplinedFor (inv : Store → Prop) (may : Nat → Option Nat → Store → Store → Prop)
    (setup : Setup Store Memory Error Operation World) : Prop where
  launched : ∀ index operation store, inv store →
    Safe (around inv (may index) index) (fun _ _ _ => True) (setup.launch index operation) store setup.memory
  released : ∀ index store, inv store →
    inv (setup.release index store) ∧ may index (some index) store (setup.release index store)
  changed : ∀ change store, inv store →
    inv (setup.outside change store) ∧ ∃ any, may any none store (setup.outside change store)

structure Disciplined (inv : Store → Prop) (may : Option Nat → Store → Store → Prop)
    (setup : Setup Store Memory Error Operation World) : Prop where
  launched : ∀ index operation store, inv store →
    Safe (around inv may index) (fun _ _ _ => True) (setup.launch index operation) store setup.memory
  released : ∀ index store, inv store →
    inv (setup.release index store) ∧ may (some index) store (setup.release index store)
  changed : ∀ change store, inv store → inv (setup.outside change store) ∧ may none store (setup.outside change store)

theorem disciplinedFor_of_disciplined (disciplined : Disciplined inv may setup) :
    DisciplinedFor inv (fun _ => may) setup where
  launched := disciplined.launched
  released := disciplined.released
  changed change store holds := by
    obtain ⟨kept, done⟩ := disciplined.changed change store holds
    exact ⟨kept, 0, done⟩

variable {system : System Store Memory Error}

def Moved (may : Option Nat → Store → Store → Prop) (before after : Store) : Prop := ∃ who, may who before after

theorem safe_proceed {me : Nat} {session : Session Store Memory Error Unit} {store : Store} {memory : Memory}
    (holds : inv store) (safe : Safe (around inv may me) (fun _ _ _ => True) session store memory)
    (ready : ∀ statement, session.question = some statement → statement.ready store = true) :
    Safe (around inv may me) (fun _ _ _ => True) (session.step (fun _ => store) memory).1
      (match session.question with
        | some statement => statement.write store
        | none => store) (session.step (fun _ => store) memory).2 := by
  have refl : (around inv may me).later store store := ⟨holds, ReflTransGen.refl⟩
  have next := safe_step refl safe fun statement asked => ⟨ready statement asked, rfl⟩
  cases asked : session.question with
  | none => simpa only [asked] using next
  | some statement =>
    simp only [asked] at next
    exact next

theorem soundFor_proceed {mays : Nat → Option Nat → Store → Store → Prop} {index : Nat}
    {session : Session Store Memory Error Unit × Memory} (sound : SoundFor inv mays system)
    (listed : system.sessions[index]? = some session)
    (spared : mays index (some index) system.store (system.proceed index session).store →
      Spared mays (some index) system (system.proceed index session).store) :
    SoundFor inv mays (system.proceed index session) ∧
      ((system.proceed index session).store = system.store ∨
        mays index (some index) system.store (system.proceed index session).store) := by
  have safe := sound.safe index session listed
  simp only [System.proceed] at spared ⊢
  cases asked : session.1.question with
  | none =>
    have next := safe_proceed sound.holds safe (by simp [asked])
    simp only [asked] at next
    refine ⟨⟨sound.holds, ?_⟩, .inl rfl⟩
    intro other session' listed'
    rw [List.getElem?_set] at listed'
    split at listed'
    · next same =>
      subst same
      split at listed'
      · rw [← Option.some.inj listed']
        exact next
      · cases listed'
    · exact sound.safe other session' listed'
  | some statement =>
    by_cases ready : statement.ready system.store = true
    · have next := safe_proceed sound.holds safe (by simp [asked, ready])
      have written : inv (statement.write system.store) ∧
          mays index (some index) system.store (statement.write system.store) := by
        obtain ⟨program, memory⟩ := session
        cases program with
        | ask query continuation =>
          simp only [Program.question, Option.some.injEq] at asked
          subst asked
          exact (safe system.store ⟨sound.holds, ReflTransGen.refl⟩).1 ready
        | done result => cases asked
        | load continuation => cases asked
        | store memory continuation => cases asked
      simp only [asked] at next spared
      simp only [ready, if_true] at spared ⊢
      refine ⟨⟨written.1, ?_⟩, .inr written.2⟩
      intro other session' listed'
      rw [List.getElem?_set] at listed'
      split at listed'
      · next same =>
        subst same
        split at listed'
        · rw [← Option.some.inj listed']
          exact next
        · cases listed'
      · next different =>
        exact safe_spared sound (spared written.2) listed' (by simpa using different) written.1
    · simp only [ready]
      exact ⟨sound, .inl rfl⟩

theorem soundFor_step {mays : Nat → Option Nat → Store → Store → Prop} (disciplined : DisciplinedFor inv mays setup)
    (sound : SoundFor inv mays system) (move : Move Operation World)
    (spared : ∀ any, mays any (actor move) system.store (system.step setup move).store →
      Spared mays (actor move) system (system.step setup move).store) :
    SoundFor inv mays (system.step setup move) ∧ ((system.step setup move).store = system.store ∨
      ∃ any, mays any (actor move) system.store (system.step setup move).store) := by
  cases move with
  | start operation =>
    refine ⟨⟨sound.holds, ?_⟩, .inl rfl⟩
    intro index session listed
    simp only [System.step] at listed
    rcases Nat.lt_or_ge index system.sessions.length with inside | beyond
    · rw [List.getElem?_append_left inside] at listed
      exact sound.safe index session listed
    · rw [List.getElem?_append_right beyond] at listed
      obtain ⟨last, same⟩ := List.getElem?_eq_some_iff.mp listed
      simp only [List.length_singleton, Nat.lt_one_iff] at last
      have index_eq : index = system.sessions.length := by omega
      subst index_eq
      simp only [Nat.sub_self, List.getElem_singleton] at same
      rw [← same]
      exact disciplined.launched _ operation system.store sound.holds
  | proceed index =>
    simp only [System.step] at spared ⊢
    cases listed : system.sessions[index]? with
    | none => exact ⟨sound, .inl rfl⟩
    | some session =>
      simp only [listed] at spared
      obtain ⟨next, done⟩ := soundFor_proceed sound listed (spared index)
      exact ⟨next, done.imp id fun done => ⟨index, done⟩⟩
  | abort index =>
    obtain ⟨holds, done⟩ := disciplined.released index system.store sound.holds
    have spared := spared index done
    refine ⟨⟨holds, ?_⟩, .inr ⟨index, done⟩⟩
    intro other session listed
    simp only [System.step, List.getElem?_set] at listed
    split at listed
    · next same =>
      subst same
      split at listed
      · rw [← Option.some.inj listed]
        trivial
      · cases listed
    · next different => exact safe_spared sound spared listed (by simpa [actor] using different) holds
  | outside change =>
    obtain ⟨holds, any, done⟩ := disciplined.changed change system.store sound.holds
    have spared := spared any done
    refine ⟨⟨holds, ?_⟩, .inr ⟨any, done⟩⟩
    intro other session listed
    exact safe_spared sound spared listed (by simp [actor]) holds

theorem sound_step (disciplined : Disciplined inv may setup) (sound : Sound inv may system)
    (move : Move Operation World) :
    Sound inv may (system.step setup move) ∧ ReflTransGen (Moved may) system.store (system.step setup move).store := by
  obtain ⟨next, same | ⟨_, done⟩⟩ :=
    soundFor_step (disciplinedFor_of_disciplined disciplined) sound move fun _ done _ _ _ _ _ => done
  · exact ⟨next, same ▸ ReflTransGen.refl⟩
  · exact ⟨next, ReflTransGen.single ⟨_, done⟩⟩

theorem sound_run (disciplined : Disciplined inv may setup) (sound : Sound inv may system)
    (moves : List (Move Operation World)) :
    Sound inv may (Runs.run (System.step setup) system moves) ∧
      ReflTransGen (Moved may) system.store (Runs.run (System.step setup) system moves).store := by
  induction moves generalizing system with
  | nil => exact ⟨sound, ReflTransGen.refl⟩
  | cons move rest ih =>
    obtain ⟨next, moved⟩ := sound_step disciplined sound move
    obtain ⟨final, more⟩ := ih next
    exact ⟨final, moved.trans more⟩

-- Every step of a run whose steps spare the sessions
theorem soundFor_steps {mays : Nat → Option Nat → Store → Store → Prop} (disciplined : DisciplinedFor inv mays setup)
    (sound : SoundFor inv mays system) (moves : List (Move Operation World))
    (spared : Runs.Guarded (System.step setup) (fun system move => ∀ any,
      mays any (actor move) system.store (system.step setup move).store →
        Spared mays (actor move) system (system.step setup move).store) system moves) :
    Runs.Guarded (System.step setup) (fun system move => SoundFor inv mays system ∧
      ((system.step setup move).store = system.store ∨
        ∃ any, mays any (actor move) system.store (system.step setup move).store)) system moves := by
  induction moves generalizing system with
  | nil => trivial
  | cons move rest ih =>
    obtain ⟨next, moved⟩ := soundFor_step disciplined sound move spared.1
    exact ⟨⟨sound, moved⟩, ih next spared.2⟩

theorem sound_start {store : Store} (holds : inv store) : Sound inv may (⟨store, []⟩ : System Store Memory Error) :=
  ⟨holds, by simp⟩

end Run

/-! ## Sessions whose every statement keeps to a relation -/

section Keeping
variable {step : Store → Store → Prop}

def Keeps (step : Store → Store → Prop) : Session Store Memory Error α → Prop
  | .done _ => True
  | .ask statement next =>
    (∀ store, statement.ready store = true → step store (statement.write store)) ∧ ∀ answer, Keeps step (next answer)
  | .load next => ∀ memory, Keeps step (next memory)
  | .store _ next => Keeps step next

@[simp] theorem keeps_pure (a : α) : Keeps step (pure a : Session Store Memory Error α) := trivial

@[simp] theorem keeps_raise (error : Error) : Keeps step (raise error : Session Store Memory Error α) := trivial

@[simp] theorem keeps_orRaise (result : Except Error α) : Keeps step (orRaise result : Session Store Memory Error α) := trivial

theorem keeps_getMemory : Keeps step (getMemory : Session Store Memory Error Memory) := fun _ => trivial

theorem keeps_setMemory (memory : Memory) : Keeps step (setMemory memory : Session Store Memory Error Unit) := trivial

theorem keeps_bind {session : Session Store Memory Error α} {rest : α → Session Store Memory Error β} (first : Keeps step session)
    (second : ∀ a, Keeps step (rest a)) : Keeps step (session >>= rest) := by
  induction session with
  | done result =>
    cases result with
    | ok a => exact second a
    | error error => trivial
  | ask statement next ih => exact ⟨first.1, fun answer => ih answer (first.2 answer)⟩
  | load next ih => exact fun memory => ih memory (first memory)
  | store memory next ih => exact ih first

theorem keeps_attempt {session : Session Store Memory Error α} (keeps : Keeps step session) :
    Keeps step (attempt session) := by
  induction session with
  | done result => trivial
  | ask statement next ih => exact ⟨keeps.1, fun answer => ih answer (keeps.2 answer)⟩
  | load next ih => exact fun memory => ih memory (keeps memory)
  | store memory next ih => exact ih keeps

theorem keeps_look (refl : ∀ store, step store store) : Keeps step (look : Session Store Memory Error Store) :=
  ⟨fun store _ => refl store, fun _ => trivial⟩

theorem keeps_mono {weaker : Store → Store → Prop} {session : Session Store Memory Error α}
    (implied : ∀ before after, step before after → weaker before after) (keeps : Keeps step session) :
    Keeps weaker session := by
  induction session with
  | done result => trivial
  | ask statement next ih =>
    exact ⟨fun store ready => implied _ _ (keeps.1 store ready), fun answer => ih answer (keeps.2 answer)⟩
  | load next ih => exact fun memory => ih memory (keeps memory)
  | store memory next ih => exact ih keeps

-- Every result it can come to
def Yields (post : α → Prop) : Session Store Memory Error α → Prop
  | .done result => ∀ a, result = .ok a → post a
  | .ask _ next => ∀ answer, Yields post (next answer)
  | .load next => ∀ memory, Yields post (next memory)
  | .store _ next => Yields post next

theorem yields_pure {post : α → Prop} {a : α} (right : post a) : Yields post (pure a : Session Store Memory Error α) := by
  intro b same
  cases same
  exact right

theorem yields_raise {post : α → Prop} (error : Error) : Yields post (raise error : Session Store Memory Error α) := by
  intro a same
  cases same

theorem yields_any (session : Session Store Memory Error α) : Yields (fun _ => True) session := by
  induction session with
  | done result => exact fun _ _ => trivial
  | ask statement next ih => exact ih
  | load next ih => exact ih
  | store memory next ih => exact ih

theorem yields_bind {middle : α → Prop} {post : β → Prop} {session : Session Store Memory Error α}
    {rest : α → Session Store Memory Error β} (first : Yields middle session)
    (second : ∀ a, middle a → Yields post (rest a)) : Yields post (session >>= rest) := by
  induction session with
  | done result =>
    cases result with
    | ok a => exact second a (first a rfl)
    | error error => exact yields_raise error
  | ask statement next ih => exact fun answer => ih answer (first answer)
  | load next ih => exact fun memory => ih memory (first memory)
  | store memory next ih => exact ih first

theorem keeps_bind_of_yields {post : α → Prop} {session : Session Store Memory Error α}
    {rest : α → Session Store Memory Error β} (first : Keeps step session) (yields : Yields post session)
    (second : ∀ a, post a → Keeps step (rest a)) : Keeps step (session >>= rest) := by
  induction session with
  | done result =>
    cases result with
    | ok a => exact second a (yields a rfl)
    | error error => trivial
  | ask statement next ih => exact ⟨first.1, fun answer => ih answer (first.2 answer) (yields answer)⟩
  | load next ih => exact fun memory => ih memory (first memory) (yields memory)
  | store memory next ih => exact ih first yields

end Keeping

/-! ## Sessions that rely on the others -/

section Relying
variable {inv : Store → Prop} {may : Option Nat → Store → Store → Prop} {me : Nat} {store : Store} {memory : Memory}

def Stable (inv : Store → Prop) (may : Option Nat → Store → Store → Prop) (fact : Store → Prop) : Prop :=
  ∀ who before after, inv before → inv after → may who before after → fact before → fact after

theorem kept_later {fact : Store → Prop}
    (kept : ∀ who before after, who ≠ some me → inv before → inv after → may who before after → fact before → fact after)
    {before after : Store} (start : inv before) (since : (around inv may me).later before after) (holds : fact before) :
    fact after := by
  have both : inv after ∧ fact after := by
    have path := since.2
    clear since
    induction path with
    | refl => exact ⟨start, holds⟩
    | tail _ last ih =>
      obtain ⟨now, who, other, done⟩ := last
      exact ⟨now, kept who _ _ other ih.1 now done ih.2⟩
  exact both.2

theorem stable_later {fact : Store → Prop} (stable : Stable inv may fact) {before after : Store} (start : inv before)
    (since : (around inv may me).later before after) (holds : fact before) : fact after :=
  kept_later (fun who before after _ => stable who before after) start since holds

theorem stable_and {first second : Store → Prop} (one : Stable inv may first) (two : Stable inv may second) :
    Stable inv may (fun store => first store ∧ second store) :=
  fun who before after start final done holds =>
    ⟨one who before after start final done holds.1, two who before after start final done holds.2⟩

-- A session that keeps to what it may do, while a fact it knew goes on holding
theorem safe_of_keeps_own {step : Store → Store → Prop} {fact : Store → Prop} {post : α → Prop}
    {session : Session Store Memory Error α}
    (allowed : ∀ before after, step before after → inv before → inv after ∧ may (some me) before after)
    (own : ∀ before after, step before after → inv before → fact before → fact after)
    (others : ∀ who before after, who ≠ some me → inv before → inv after → may who before after → fact before → fact after)
    (keeps : Keeps step session) (yields : Yields post session) (start : inv store) (holds : fact store) :
    Safe (around inv may me) (fun now _ result => (inv now ∧ fact now) ∧ ∀ a, result = .ok a → post a) session store
      memory := by
  induction session generalizing store memory with
  | done result => exact ⟨⟨start, holds⟩, yields⟩
  | ask statement next ih =>
    intro now since
    have known := kept_later others start since holds
    refine ⟨fun ready => allowed _ _ (keeps.1 now ready) since.1, ?_⟩
    rintro answer ⟨ready, _⟩
    have done := keeps.1 now ready
    exact ih answer (keeps.2 answer) (yields answer) (allowed _ _ done since.1).1 (own _ _ done since.1 known)
  | load next ih => exact ih memory (keeps memory) (yields memory) start holds
  | store memory next ih => exact ih keeps yields start holds

theorem safe_of_keeps {step : Store → Store → Prop} {fact : Store → Prop} {post : α → Prop}
    {session : Session Store Memory Error α}
    (allowed : ∀ before after, step before after → inv before → inv after ∧ may (some me) before after)
    (stable : Stable inv may fact) (keeps : Keeps step session) (yields : Yields post session) (start : inv store)
    (holds : fact store) :
    Safe (around inv may me) (fun now _ result => (inv now ∧ fact now) ∧ ∀ a, result = .ok a → post a) session store
      memory := by
  refine safe_of_keeps_own allowed ?_ (fun who before after _ => stable who before after) keeps yields start holds
  intro before after done holds known
  obtain ⟨kept, moved⟩ := allowed _ _ done holds
  exact stable _ _ _ holds kept moved known

theorem safe_look {post : Store → Memory → Except Error α → Prop} {rest : Store → Session Store Memory Error α}
    (quiet : ∀ now, inv now → may (some me) now now)
    (then_ : ∀ now, (around inv may me).later store now → Safe (around inv may me) post (rest now) now memory) :
    Safe (around inv may me) post (look >>= rest) store memory := by
  intro now since
  refine ⟨fun _ => ⟨since.1, quiet now since.1⟩, ?_⟩
  rintro answer ⟨_, same⟩
  subst same
  exact then_ _ since

-- A fact that stays is known after as well.
theorem safe_knowing {fact : Store → Prop} {post : Store → Memory → Except Error α → Prop}
    {session : Session Store Memory Error α} (stable : Stable inv may fact)
    (safe : Safe (around inv may me) post session store memory) (start : inv store) (holds : fact store) :
    Safe (around inv may me) (fun now memory result => post now memory result ∧ fact now) session store memory := by
  induction session generalizing store memory with
  | done result => exact ⟨safe, holds⟩
  | ask statement next ih =>
    intro now since
    have known := stable_later stable start since holds
    obtain ⟨demanded, answered⟩ := safe now since
    refine ⟨demanded, fun answer right => ?_⟩
    obtain ⟨kept, done⟩ := demanded right.1
    exact ih answer (answered answer right) kept (stable _ _ _ since.1 kept done known)
  | load next ih => exact ih memory safe start holds
  | store memory next ih => exact ih safe start holds

theorem safe_attempt {post : Store → Memory → Except Error α → Prop} {session : Session Store Memory Error α}
    (safe : Safe (around inv may me) post session store memory) :
    Safe (around inv may me) (fun now memory result => ∃ inner, result = .ok inner ∧ post now memory inner)
      (attempt session) store memory := by
  induction session generalizing store memory with
  | done result => exact ⟨result, rfl, safe⟩
  | ask statement next ih =>
    intro now since
    obtain ⟨demanded, answered⟩ := safe now since
    exact ⟨demanded, fun answer right => ih answer (answered answer right)⟩
  | load next ih => exact ih memory safe
  | store memory next ih => exact ih safe

end Relying

end Sessions
