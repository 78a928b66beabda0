import QVault.Proof.Services.Recovery.Lifecycle

/-!
# Recovery requests in every run
-/

namespace QVault.Proof.Recovery
open QVault.Recovery QVault.Python QVault.Crypto Programs Sessions Transactions Relation

variable {suite : Suite} {me : Nat} {before after : Db}

/-! ## The phone confirms a kit request -/

-- What `confirm_kit` has read stays so until it writes.
def WindowOf (id : Nat) (window : Int) (db : Db) : Prop := ∃ r ∈ db.requests.1, r.id = id ∧ r.windowStartsAt = some window

def AskedFor (approval request : Nat) (db : Db) : Prop :=
  ∃ a ∈ db.approvals, a.id = approval ∧ a.requestId = request ∧ a.purpose = .kitConfirm

abbrev may : Option Nat → Db → Db → Prop := fun _ => Advances

theorem stable_windowOf (id : Nat) (window : Int) : Stable Lawful may (WindowOf id window) := by
  rintro who before after _ _ advances ⟨r, listed, named, opened⟩
  obtain ⟨r', listed', forward, _⟩ := advances.rows r listed
  refine ⟨r', listed', forward.same.id.trans named, ?_⟩
  rw [forward.window (by simp [opened]), opened]

theorem stable_askedFor (approval request : Nat) : Stable Lawful may (AskedFor approval request) := by
  rintro who before after _ _ advances ⟨a, listed, named, asked, purpose⟩
  obtain ⟨a', listed', follows⟩ := advances.approvals a listed
  exact ⟨a', listed', follows.id.trans named, follows.request.trans asked, follows.purpose.trans purpose⟩

theorem confirming_advances {id approval : Nat} {window now : Int} (lawful : Lawful before)
    (kept : ApprovalsKept Follows before after) (opened : WindowOf id window before) (asked : AskedFor approval id before)
    (confirming : Confirming before after id approval (kitConfirmTarget window now) now) :
    Lawful after ∧ Advances before after := by
  obtain ⟨ids, follows, _⟩ := kept lawful.approvals
  obtain ⟨r, completes, found, waiting, due, earlier, rows⟩ := confirming.moved
  obtain ⟨listed, named⟩ := request_found found
  have rows := rows.trans (rewrite_found found)
  have own : before.request? r.id = some r := by rw [named]; exact found
  have opens : r.windowStartsAt = some window := by
    obtain ⟨s, listed', named', opens⟩ := opened
    rw [request_unique listed listed' (named.trans named'.symm)]
    exact opens
  have floor : ∀ w, r.windowStartsAt = some w → w + hours 24 ≤ kitConfirmTarget window now := by
    intro w same
    rw [opens, Option.some.injEq] at same
    exact same ▸ le_max_left _ _
  have open_ : r.state.isEnd = false := by rw [waiting]; rfl
  refine ⟨?_, ?_⟩
  · have same : SameRequest r { r with completesAt := some (kitConfirmTarget window now) } := ⟨rfl, rfl, rfl, rfl⟩
    refine lawful_rewritten [] lawful ids own open_ same
      (regular_sooner (lawful.regular r listed) waiting floor) rows ?_ (by simp) (by simp) (by simp [open_])
    rw [List.append_nil]
    exact confirming.endings
  · have forward : Forward r { r with completesAt := some (kitConfirmTarget window now) } := by
      refine ⟨⟨rfl, rfl, rfl, rfl⟩, by simp [open_], fun _ => rfl, ?_⟩
      intro due' read
      rw [due, Option.some.injEq] at read
      exact ⟨_, rfl, read ▸ earlier.le⟩
    refine advances_rewritten own forward rows follows ?_
    rintro due' sooner _ read
    rw [Option.some.injEq] at read
    obtain ⟨a, found', approved, _⟩ := confirming.used.approved
    obtain ⟨listed', named'⟩ := approval_found found'
    obtain ⟨b, listed'', named'', request, purpose⟩ := asked
    have same := approval_unique lawful.approvals listed'' listed' (named''.trans named'.symm)
    subst same
    refine .inr ⟨{ b with state := .used, usedAt := some now }, ?_, request.trans named.symm, purpose, rfl,
      ⟨now, rfl, read ▸ le_max_right _ _⟩, ?_⟩
    · rw [confirming.used.rows]
      exact List.mem_map.mpr ⟨b, listed', by simp [named']⟩
    · intro c known same used
      rw [approval_unique lawful.approvals known listed' same, approved] at used
      cases used

/-! ## Sessions -/

theorem release_advances (me : Nat) (lawful : Lawful before) :
    Lawful (before.release me) ∧ Advances before (before.release me) := by
  have change : Change before (before.release me) := .beside rfl rfl
  exact ⟨lawful_of_change lawful lawful.approvals change,
    advances_of_change lawful (fun a listed => ⟨a, listed, follows_refl a⟩) change⟩

abbrev safely (me : Nat) : Surroundings (Statement Db) (fun _ => Db) Db := around Lawful may me

theorem safe_quiet {α : Type} {kinds : List Kind} {work : Work α} {memory : Proofs} {store : Db} (other : Kind.confirm ∉ kinds)
    (does : Does suite kinds work) (lawful : Lawful store) :
    Safe (safely me) (fun now _ _ => Lawful now) work store memory := by
  have nothing : Stable Lawful may (fun _ => True) := fun _ _ _ _ _ _ holds => holds
  have safe : Safe (safely me) _ work store memory :=
    safe_of_keeps (fun _ _ acts holds => acts_advance other acts holds) nothing does (yields_any work) lawful trivial
  exact safe_mono (fun _ _ _ holds => holds.1.1) safe

theorem safe_looking {α : Type} {post : Db → Proofs → Except Refusal α → Prop} {rest : Db → Work α} {store : Db}
    {memory : Proofs} (then_ : ∀ now, (safely me).later store now → Safe (safely me) post (rest now) now memory) :
    Safe (safely me) post (look >>= rest) store memory :=
  safe_look (fun now _ => advances_refl now) then_

theorem bySelector_found {db : Db} {selector : Text} {now : Int} {purpose : Purpose} {request : Nat} {a : Approval}
    (found : db.bySelector selector now purpose (some request) = some a) :
    a ∈ db.approvals ∧ a.requestId = request ∧ a.purpose = purpose := by
  have listed := List.mem_of_mem_head? found
  rw [List.mem_insertionSort, List.mem_filter] at listed
  obtain ⟨listed, chosen⟩ := listed
  simp only [Bool.and_eq_true, decide_eq_true_eq, Option.all_some] at chosen
  exact ⟨listed, chosen.2, chosen.1.2⟩

theorem yields_tryCode (named : Named) (found : Approval) (code : Text) (typedAt : Int) :
    Yields (fun result => ∀ a, result = some a → a.id = found.id) (tryCode suite me named (some found) code typedAt) := by
  refine yields_bind (yields_any _) fun took _ => ?_
  split
  · exact yields_pure (by simp)
  · have compared : Yields (fun result => ∀ a, result = some a → a.id = found.id)
        (compareSecret suite me found.id (splitCode code).2 typedAt) := by
      rintro db result same a rfl
      rw [Except.ok.injEq] at same
      exact (approval_found (Option.filter_eq_some_iff.mp same).1).2
    refine yields_bind compared fun matched named => ?_
    · split
      · exact yields_pure named
      · refine yields_bind (yields_any _) fun db _ => ?_
        split
        · exact yields_pure (by simp)
        · exact yields_bind (yields_any _) fun _ _ => yields_pure (by simp)

theorem safe_confirmRequest {r : Request} {approval : Approval} {window now : Int} {store : Db} {memory : Proofs}
    (lawful : Lawful store) (opened : WindowOf r.id window store) (asked : AskedFor approval.id r.id store) :
    Safe (safely me) (fun now _ _ => Lawful now)
      (transact me [r.id] (confirmRequest suite r approval (kitConfirmTarget window now) now)) store memory := by
  apply safe_commit
  · intro now' _ after since done
    have known := stable_later (stable_and (stable_windowOf _ _) (stable_askedFor _ _)) lawful since ⟨opened, asked⟩
    have act : Act suite .confirm now' after := .confirm done
    obtain ⟨between, moved⟩ := confirming_advances since.1 (act_keeps act) known.1 known.2 (confirmRequest_ok done)
    obtain ⟨final, released⟩ := release_advances me between
    exact ⟨⟨final, advances_trans moved released⟩, final⟩
  · intro now' error since _
    have released := release_advances me since.1
    exact ⟨released, released.1⟩

theorem safe_confirmKit {token : Bytes} {code : Text} {store : Db} {memory : Proofs} (lawful : Lawful store) :
    Safe (safely me) (fun now _ _ => Lawful now) (confirmKit suite me token code) store memory := by
  refine safe_looking fun now since => safe_looking fun db since' => ?_
  split
  · next r found =>
    have listed : r ∈ db.requests.1 := List.mem_of_find?_eq_some found
    have decoded : Safe (safely me) (fun world _ _ => world = db)
        (orRaise (normaliseCode suite.upper code) : Work Text) db memory := rfl
    refine safe_bind decoded ?_ (fun _ _ _ same => same ▸ since'.1)
    rintro _ memory typed rfl
    split
    · next window route state due opened =>
      dsimp only
      split
      · exact since'.1
      split
      · exact since'.1
      have known : WindowOf r.id window _ := ⟨r, listed, rfl, opened⟩
      refine safe_looking fun later since'' => ?_
      have known := stable_later (stable_windowOf _ _) since'.1 since'' known
      cases candidate : later.bySelector (splitCode typed).1 now.clock .kitConfirm (some r.id) with
      | none => exact since''.1
      | some chosen =>
        obtain ⟨listed', asked, purpose⟩ := bySelector_found candidate
        have facts : WindowOf r.id window later ∧ AskedFor chosen.id r.id later := ⟨known, chosen, listed', rfl, asked, purpose⟩
        have does : Does suite [.lock, .spend, .compare, .runOut] (tryCode suite me (.request r.id) (some chosen) typed now.clock) :=
          does_tryCode (by simp) (by simp) (by simp) (by simp) _ _ _ _
        have tried : Safe (safely me) _ (tryCode suite me (.request r.id) (some chosen) typed now.clock) later memory :=
          safe_of_keeps (fun _ _ acts holds => acts_advance (by simp) acts holds)
            (stable_and (stable_windowOf _ _) (stable_askedFor _ _)) does (yields_tryCode _ chosen typed _) since''.1 facts
        refine safe_bind tried ?_ (fun _ _ _ holds => holds.1.1)
        rintro world _ result ⟨⟨holds, opened, asked⟩, named⟩
        split
        · next approval =>
          have named := named _ rfl approval rfl
          refine safe_looking fun last since₃ => ?_
          have known := stable_later (stable_and (stable_windowOf _ _) (stable_askedFor _ _)) holds since₃ ⟨opened, asked⟩
          split
          · split
            · exact since₃.1
            · exact safe_confirmRequest since₃.1 known.1 (named ▸ known.2)
          · exact since₃.1
        · exact holds
    · exact since'.1
  · exact since'.1

theorem safe_operate {operation : Operation} {store : Db} {memory : Proofs} (lawful : Lawful store) :
    Safe (safely me) (fun now _ _ => Lawful now) (operate suite me operation) store memory := by
  by_cases confirms : Kind.confirm ∈ kindsOf operation
  · cases operation with
    | confirmKit token code => exact safe_confirmKit lawful
    | _ => simp [kindsOf] at confirms
  · exact safe_quiet confirms (does_operate operation) lawful

theorem safe_launch {operation : Operation} {store : Db} {memory : Proofs} (lawful : Lawful store) :
    Safe (safely me) (fun now _ _ => Lawful now) (launch suite me operation) store memory := by
  have rest : Does suite [.lock, .cancel] (do rollback me; settlePasswordProofs me) :=
    keeps_bind (does_rollback (by simp)) fun _ => does_settlePasswordProofs (by simp) (by simp)
  have tried : Safe (safely me) (fun now _ _ => Lawful now) (discard (attempt (operate suite me operation))) store memory := by
    refine safe_bind (safe_attempt (safe_operate lawful)) ?_ ?_
    · rintro world _ _ ⟨inner, _, holds⟩
      exact holds
    · rintro world _ _ ⟨inner, _, holds⟩
      exact holds
  exact safe_bind tried (fun _ _ _ holds => safe_quiet (by simp) rest holds) fun _ _ _ holds => holds

theorem outside_advances (change : Outside) (lawful : Lawful before) :
    Lawful (change.apply before) ∧ Advances before (change.apply before) := by
  have quiet : endingLog (change.apply before) = endingLog before := by
    cases change with
    | logged event =>
      simp only [Outside.apply]
      split
      · rfl
      · next other => simp [endingLog, List.filter_append, other]
    | _ => rfl
  have same : (change.apply before).requests = before.requests ∧ (change.apply before).approvals = before.approvals := by
    cases change with
    | logged event =>
      simp only [Outside.apply]
      split <;> exact ⟨rfl, rfl⟩
    | _ => exact ⟨rfl, rfl⟩
  have untouched : ApprovalsKept Follows before (change.apply before) := approvalsKept_of_eq same.2
  obtain ⟨ids, kept, _⟩ := untouched lawful.approvals
  have change : Change before (change.apply before) := .beside same.1 quiet
  exact ⟨lawful_of_change lawful ids change, advances_of_change lawful kept change⟩

theorem disciplined (suite : Suite) : Disciplined Lawful may (setup suite) where
  launched _ operation _ lawful := safe_mono (fun _ _ _ _ => trivial) (safe_launch lawful)
  released _ _ lawful := release_advances _ lawful
  changed change _ lawful := outside_advances change lawful

theorem moved_advances (path : ReflTransGen (Moved may) before after) : Advances before after := by
  induction path with
  | refl => exact advances_refl before
  | tail _ last ih =>
    obtain ⟨_, last⟩ := last
    exact advances_trans ih last

theorem run_sound (suite : Suite) (moves : List Move) : Sound Lawful may (run suite System.empty moves) :=
  (sound_run (disciplined suite) (sound_start lawful_empty) moves).1

/-! ## The lifecycle -/

-- What a run makes of the requests between two moments
structure Lifecycle (before after : Db) : Prop where
  one : ∀ r ∈ before.requests.1, ∃ r' ∈ after.requests.1, SameRequest r r' ∧ (r.state.isEnd = true → r' = r)
  waiting : ∀ r ∈ after.requests.1, ∀ s ∈ after.requests.1, r.state = .waiting → s.state = .waiting →
    r.userId = s.userId → r = s
  due : ∀ r ∈ after.requests.1, r.state = .completed ∨ r.state = .failed →
    ∃ completes now, r.completesAt = some completes ∧ r.finishedAt = some now ∧ completes ≤ now
  inTime : ∀ r ∈ before.requests.1, r.state = .waiting → ∀ r' ∈ after.requests.1, r'.id = r.id → r'.state = .cancelled →
    ∃ completes now, r'.completesAt = some completes ∧ r'.finishedAt = some now ∧ now < completes
  floor : ∀ r ∈ after.requests.1, ∀ completes, r.completesAt = some completes →
    ∃ window, r.windowStartsAt = some window ∧ window + hours 24 ≤ completes
  earlier : ∀ r ∈ before.requests.1, ∀ r' ∈ after.requests.1, r'.id = r.id → ∀ completes, r.completesAt = some completes →
    r'.windowStartsAt = r.windowStartsAt ∧
      (r'.completesAt = some completes ∨ ∃ sooner < completes, r'.completesAt = some sooner ∧ Confirmed before after r.id sooner)
  erased : ∀ r ∈ after.requests.1, r.state.isEnd = true → r.pending = .erased ∧ r.wraps = []
  told : ∀ r ∈ before.requests.1, r.state = .waiting → ∀ r' ∈ after.requests.1, r'.id = r.id →
    endings after r'.uuid = (endingEvent r'.state).toList

theorem lifecycle_of_advances (start : Lawful before) (final : Lawful after) (advances : Advances before after) :
    Lifecycle before after := by
  have image : ∀ r ∈ before.requests.1, ∀ r' ∈ after.requests.1, r'.id = r.id → Forward r r' ∧
      ∀ completes sooner, r.completesAt = some completes → r'.completesAt = some sooner →
        sooner = completes ∨ Confirmed before after r.id sooner := by
    intro r listed r' listed' same
    obtain ⟨s, listed'', forward⟩ := advances.rows r listed
    rw [request_unique listed' listed'' (same.trans forward.1.same.id.symm)]
    exact forward
  have opened : ∀ r ∈ before.requests.1, r.state = .waiting → ∀ r' ∈ after.requests.1, r'.id = r.id →
      r'.windowStartsAt ≠ none ∧ ∃ completes, r'.completesAt = some completes := by
    intro r listed waiting r' listed' same
    have window := (start.regular r listed).waited waiting
    rw [← (image r listed r' listed' same).1.window window] at window
    rcases (final.regular r' listed').window with ⟨none_, _⟩ | ⟨_, completes, _, due, _⟩
    · exact absurd none_ window
    · exact ⟨window, completes, due⟩
  refine ⟨?_, ?_, fun r listed => (final.regular r listed).performed, ?_, ?_, ?_, fun r listed => (final.regular r listed).erased, ?_⟩
  · intro r listed
    obtain ⟨r', listed', forward, _⟩ := advances.rows r listed
    exact ⟨r', listed', forward.same, forward.ended⟩
  · intro r listed s listed' waiting waiting' same
    have mem : ∀ t ∈ after.requests.1, t.state = .waiting → t ∈ after.requests.1.filter (·.state.isOpen) := by
      intro t known waits
      exact List.mem_filter.mpr ⟨known, by rw [waits]; rfl⟩
    exact List.inj_on_of_nodup_map after.requests.2.openUsers (mem r listed waiting) (mem s listed' waiting') same
  · intro r listed waiting r' listed' same cancelled
    obtain ⟨_, completes, due⟩ := opened r listed waiting r' listed' same
    obtain ⟨now, finished, lt⟩ := (final.regular r' listed').cancelled cancelled completes due
    exact ⟨completes, now, due, finished, lt⟩
  · intro r listed completes due
    rcases (final.regular r listed).window with ⟨_, none_⟩ | ⟨window, completes', opens, due', le⟩
    · simp [none_] at due
    · rw [due, Option.some.injEq] at due'
      exact ⟨window, opens, due' ▸ le⟩
  · intro r listed r' listed' same completes due
    obtain ⟨forward, moved⟩ := image r listed r' listed' same
    obtain ⟨sooner, due', le⟩ := forward.earlier completes due
    refine ⟨forward.window ?_, ?_⟩
    · rcases (start.regular r listed).window with ⟨_, none_⟩ | ⟨window, _, opens, _⟩
      · simp [none_] at due
      · simp [opens]
    · rcases eq_or_ne sooner completes with same' | other
      · exact .inl (same' ▸ due')
      · exact .inr ⟨sooner, lt_of_le_of_ne le other, due', (moved completes sooner due due').resolve_left other⟩
  · intro r listed waiting r' listed' same
    cases ended : r'.state.isEnd with
    | true => exact final.told r' listed' ended (opened r listed waiting r' listed' same).1
    | false =>
      rw [endings_silent final listed' ended]
      cases state : r'.state <;> first | rfl | simp [state, RequestState.isEnd] at ended

theorem request_lifecycle (suite : Suite) (moves more : List Move) :
    Lifecycle (run suite System.empty moves).store (run suite System.empty (moves ++ more)).store := by
  have start := run_sound suite moves
  obtain ⟨final, path⟩ := sound_run (disciplined suite) start more
  have later : run suite System.empty (moves ++ more) = run suite (run suite System.empty moves) more :=
    Runs.run_append _ _ _
  rw [later]
  exact lifecycle_of_advances start.holds final.holds (moved_advances path)

end QVault.Proof.Recovery
