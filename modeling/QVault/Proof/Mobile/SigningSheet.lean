import QVault.Mobile.SigningSheet
import QVault.Proof.Mobile.SignedContent
import QVault.Lib.Runs

/-!
# What is signed does not change under the reader

A sheet signs what it froze, and only while every fetch of its decision carried the same content.
-/

namespace QVault.Proof.Mobile
open QVault.Python QVault.Mobile QVault.Proof.Codecs QVault.Proof.Chain Results

section Sheets
variable {engineSort : List JsValue → Except JsError (List JsValue)} {sha256 keccak256 : Bytes → Bytes}
  {verifyTypedDecision : ProposalDetail → Option Typed}

/-! ## What a check derives -/

variable (engineSort sha256 verifyTypedDecision) in
def derivedHash (detail : ProposalDetail) : JsString :=
  (checkDecision engineSort sha256 verifyTypedDecision detail).derived

variable (engineSort sha256 verifyTypedDecision) in
def contentKeyOf (detail : ProposalDetail) : JsString :=
  signedContentKey detail.signingInputs.value (derivedHash engineSort sha256 verifyTypedDecision detail)

-- The decision is the one the person opened.
def Names (detail : ProposalDetail) (route : JsString) : Prop :=
  detail.proposalUuid = route ∧ detail.signingInputs.proposalId = route

theorem describes_error {inputs : SigningInputs} {e : GuardError} (failed : describes inputs = .error e) :
    ∃ error, e = .thrown error := by
  unfold describes at failed
  cases payment : inputs.action with
  | none =>
    rw [payment] at failed
    cases failed
  | some action =>
    rw [payment] at failed
    cases written : Mobile.paymentText action.value with
    | ok text => simp [written, Except.mapError, Except.map] at failed
    | error error =>
      simp only [written, Except.mapError, Except.map, Except.error.injEq] at failed
      exact ⟨error, failed.symm⟩

variable (engineSort sha256) in
theorem integrity_outcome (detail : ProposalDetail) :
    (∃ error, verifyProposalIntegrity engineSort sha256 detail = .error (.thrown error)) ∨
    ∃ recomputed, payloadHash engineSort sha256 detail.signingInputs.value = .ok recomputed ∧
      (verifyProposalIntegrity engineSort sha256 detail = .ok recomputed ∨
        ∃ expected reason, verifyProposalIntegrity engineSort sha256 detail =
          .error (.mismatch expected recomputed reason)) := by
  unfold verifyProposalIntegrity
  cases payload : payloadHash engineSort sha256 detail.signingInputs.value with
  | error e => exact .inl ⟨e, rfl⟩
  | ok recomputed =>
    by_cases different : recomputed ≠ detail.payloadHash
    · exact .inr ⟨recomputed, rfl, .inr ⟨_, .hash, if_pos different⟩⟩
    have same : ∀ rest : Except GuardError JsString, (if recomputed ≠ detail.payloadHash then
        .error (.mismatch detail.payloadHash recomputed .hash) else rest) = rest := fun rest => if_neg different
    simp only [Except.mapError, ok_bind, same]
    cases described : describes detail.signingInputs with
    | error e =>
      obtain ⟨error, rfl⟩ := describes_error described
      exact .inl ⟨error, rfl⟩
    | ok shown =>
      refine .inr ⟨recomputed, rfl, ?_⟩
      simp only [ok_bind]
      cases displayRefusal detail shown with
      | none => exact .inl rfl
      | some reason => exact .inr ⟨_, reason, rfl⟩

theorem derived_unbarred (detail : ProposalDetail) :
    ∀ u ∈ derivedHash engineSort sha256 verifyTypedDecision detail, u ≠ unit (codePoint '|') := by
  have written : ∀ {recomputed : JsString}, payloadHash engineSort sha256 detail.signingInputs.value = .ok recomputed →
      ∀ u ∈ recomputed, u ≠ unit (codePoint '|') := by
    intro recomputed made u listed
    unfold payloadHash at made
    obtain ⟨bytes, _, made⟩ := bind_eq_ok.mp made
    rw [← Except.ok.inj made, utf16_ascii (ascii_of_hex (hexText_digits _))] at listed
    obtain ⟨c, char, rfl⟩ := List.mem_map.mp listed
    have digit := isHexUnit_unit (hexText_digits _ c char)
    intro same
    rw [same] at digit
    exact absurd digit (by decide)
  unfold derivedHash checkDecision
  rcases integrity_outcome engineSort sha256 detail with ⟨error, thrown⟩ | ⟨recomputed, made, outcome⟩
  · have words : (js "(not derived)").all (· != unit (codePoint '|')) = true := by decide
    rw [thrown]
    exact fun u listed => bne_iff_ne.mp (List.all_eq_true.mp words u listed)
  · rcases outcome with passed | ⟨expected, reason, mismatch⟩
    · rw [passed]
      cases verifyTypedDecision detail <;> exact written made
    · rw [mismatch]
      exact written made

/-! ## The memory of a run -/

structure Grows (memory later : Memory) : Prop where
  changed : ∀ route, memory.changed route = true → later.changed route = true
  first : ∀ route key, memory.first route = some key → later.first route = some key

theorem Grows.refl (memory : Memory) : Grows memory memory := ⟨fun _ is => is, fun _ _ is => is⟩

theorem Grows.trans {memory later last : Memory} (before : Grows memory later) (after : Grows later last) :
    Grows memory last :=
  ⟨fun route is => after.changed route (before.changed route is),
    fun route key is => after.first route key (before.first route key is)⟩

theorem markChanged_changed (memory : Memory) (route : JsString) : (memory.markChanged route).changed route = true := by
  simp [Memory.markChanged]

theorem markChanged_grows (memory : Memory) (route : JsString) : Grows memory (memory.markChanged route) where
  changed other is := by
    by_cases same : other = route
    · rw [same, markChanged_changed]
    · simpa [Memory.markChanged, Function.update_of_ne same] using is
  first _ _ is := is

theorem see_grows (memory : Memory) (route key : JsString) : Grows memory (memory.see route key).2 := by
  unfold Memory.see
  split_ifs with marked
  · exact .refl memory
  · cases earlier : memory.first route with
    | none =>
      refine ⟨fun _ is => is, fun other k is => ?_⟩
      have apart : other ≠ route := by
        rintro rfl
        rw [earlier] at is
        cases is
      simpa only [Function.update_of_ne apart] using is
    | some earlier =>
      simp only
      split_ifs
      · exact markChanged_grows memory route
      · exact .refl memory

-- What was seen is the first content, or the decision is marked.
theorem see_seen (memory : Memory) (route key : JsString) :
    ((memory.see route key).1 = .changed ∧ (memory.see route key).2.changed route = true) ∨
    ((memory.see route key).1 ≠ .changed ∧ (memory.see route key).2.changed route = false ∧
      (memory.see route key).2.first route = some key) := by
  unfold Memory.see
  split_ifs with marked
  · exact .inl ⟨rfl, marked⟩
  · have fresh : memory.changed route = false := by simpa using marked
    cases earlier : memory.first route with
    | none => exact .inr ⟨by simp, fresh, Function.update_self _ _ _⟩
    | some earlier' =>
      simp only
      split_ifs with different
      · exact .inl ⟨rfl, markChanged_changed memory route⟩
      · exact .inr ⟨by simp, fresh, by rw [earlier, not_not.mp different]⟩

variable (engineSort sha256 verifyTypedDecision) in
def Seen (memory : Memory) (route : JsString) (detail : ProposalDetail) : Prop :=
  memory.changed route = true ∨
    (Names detail route ∧ memory.first route = some (contentKeyOf engineSort sha256 verifyTypedDecision detail))

theorem Seen.grows {memory later : Memory} {route : JsString} {detail : ProposalDetail}
    (seen : Seen engineSort sha256 verifyTypedDecision memory route detail) (grows : Grows memory later) :
    Seen engineSort sha256 verifyTypedDecision later route detail := by
  rcases seen with marked | ⟨names, first⟩
  · exact .inl (grows.changed route marked)
  · exact .inr ⟨names, grows.first route _ first⟩

/-! ## Checks in one run -/

section Run
variable {memory : Memory} {detail : ProposalDetail} {route : JsString}

theorem checkInRun_grows : Grows memory (checkInRun engineSort sha256 verifyTypedDecision memory detail route).2 := by
  unfold checkInRun
  simp only
  split_ifs
  · exact markChanged_grows memory route
  · exact see_grows memory route _
  · exact see_grows memory route _

theorem checkInRun_seen : Seen engineSort sha256 verifyTypedDecision
    (checkInRun engineSort sha256 verifyTypedDecision memory detail route).2 route detail := by
  unfold checkInRun
  simp only
  split_ifs with other changed
  · exact .inl (markChanged_changed memory route)
  · rcases see_seen memory route _ with ⟨_, marked⟩ | ⟨unchanged, _⟩
    · exact .inl marked
    · exact absurd changed unchanged
  · rcases see_seen memory route _ with ⟨isChanged, _⟩ | ⟨_, _, first⟩
    · exact absurd isChanged changed
    · simp only [not_or, not_not] at other
      exact .inr ⟨other, first⟩

theorem checkInRun_genuine {hash : JsString} {typed : Typed}
    (genuine : (checkInRun engineSort sha256 verifyTypedDecision memory detail route).1 = .genuine hash typed) :
    Names detail route ∧ checkDecision engineSort sha256 verifyTypedDecision detail = .genuine hash typed ∧
      memory.changed route = false := by
  have unmarked : memory.changed route = true →
      (checkInRun engineSort sha256 verifyTypedDecision memory detail route).1 ≠ .genuine hash typed := by
    intro marked
    unfold checkInRun Memory.see
    simp only [marked, if_true]
    split_ifs <;> simp
  have fresh : memory.changed route = false := by
    by_contra marked
    exact unmarked (by simpa using marked) genuine
  unfold checkInRun at genuine
  simp only at genuine
  split_ifs at genuine with other changed
  simp only [not_or, not_not] at other
  exact ⟨other, genuine, fresh⟩

end Run

/-! ## Sheets -/

theorem derived_genuine {detail : ProposalDetail} {hash : JsString} {typed : Typed}
    (genuine : checkDecision engineSort sha256 verifyTypedDecision detail = .genuine hash typed) :
    derivedHash engineSort sha256 verifyTypedDecision detail = hash := by
  rw [derivedHash, genuine]
  rfl

variable (engineSort sha256 verifyTypedDecision) in
-- What an open sheet holds
structure Frozen (memory : Memory) (sheet : Sheet) : Prop where
  detail : sheet.snapshot.detail = sheet.opened
  uuid : sheet.snapshot.uuid = sheet.route
  names : Names sheet.opened sheet.route
  hash : sheet.snapshot.hash = derivedHash engineSort sha256 verifyTypedDecision sheet.opened
  seen : Seen engineSort sha256 verifyTypedDecision memory sheet.route sheet.opened

variable {memory : Memory} {detail : ProposalDetail} {route : JsString} {kind : Choice} {actions : Actions}
  {fingerprint : JsString}

variable (engineSort sha256 keccak256 verifyTypedDecision memory detail route kind actions fingerprint) in
theorem openSigningSheet_outcome :
    (∃ refusal, openSigningSheet engineSort sha256 keccak256 verifyTypedDecision memory detail route kind actions
      fingerprint = (.error refusal, memory)) ∨
    (∃ refusal, openSigningSheet engineSort sha256 keccak256 verifyTypedDecision memory detail route kind actions
      fingerprint = (.error refusal, (checkInRun engineSort sha256 verifyTypedDecision memory detail route).2)) ∨
    ∃ hash typed, (checkInRun engineSort sha256 verifyTypedDecision memory detail route).1 = .genuine hash typed ∧
      openSigningSheet engineSort sha256 keccak256 verifyTypedDecision memory detail route kind actions fingerprint =
        (.ok ⟨kind, detail.proposalUuid, detail, hash, signedContentKey detail.signingInputs.value hash⟩,
          (checkInRun engineSort sha256 verifyTypedDecision memory detail route).2) := by
  unfold openSigningSheet
  by_cases offered : (!stillOffered kind actions) = true
  · exact .inl ⟨_, if_pos offered⟩
  rw [if_neg offered]
  cases checked : checkInRun engineSort sha256 verifyTypedDecision memory detail route with
  | mk result later =>
    cases result with
    | failed reason expected actual => exact .inr (.inl ⟨.tampered, rfl⟩)
    | genuine hash typed =>
      simp only
      cases seatRefusal keccak256 kind detail hash fingerprint with
      | some refusal => exact .inr (.inl ⟨refusal, rfl⟩)
      | none => exact .inr (.inr ⟨hash, typed, rfl, rfl⟩)

theorem openSigningSheet_grows : Grows memory
    (openSigningSheet engineSort sha256 keccak256 verifyTypedDecision memory detail route kind actions fingerprint).2 := by
  rcases openSigningSheet_outcome engineSort sha256 keccak256 verifyTypedDecision memory detail route kind actions
    fingerprint with ⟨_, result⟩ | ⟨_, result⟩ | ⟨_, _, _, result⟩ <;> rw [result]
  · exact .refl memory
  · exact checkInRun_grows
  · exact checkInRun_grows

theorem openSigningSheet_ok {snapshot : Snapshot} {later : Memory}
    (opened : openSigningSheet engineSort sha256 keccak256 verifyTypedDecision memory detail route kind actions
      fingerprint = (.ok snapshot, later)) :
    memory.changed route = false ∧ Frozen engineSort sha256 verifyTypedDecision later ⟨route, detail, snapshot⟩ := by
  rcases openSigningSheet_outcome engineSort sha256 keccak256 verifyTypedDecision memory detail route kind actions
    fingerprint with ⟨_, result⟩ | ⟨_, result⟩ | ⟨hash, typed, genuine, result⟩
  · rw [result] at opened
    cases opened
  · rw [result] at opened
    cases opened
  · rw [result, Prod.mk.injEq] at opened
    obtain ⟨frozen, rfl⟩ := opened
    obtain rfl := Except.ok.inj frozen
    obtain ⟨names, checked, fresh⟩ := checkInRun_genuine genuine
    exact ⟨fresh, rfl, names.1, names, (derived_genuine checked).symm, checkInRun_seen⟩

variable {snapshot : Snapshot} {live : Option ProposalDetail} {reason : JsString}

theorem liveRefusal_grows {page : ProposalDetail} :
    Grows memory (liveRefusal engineSort sha256 verifyTypedDecision memory snapshot page).2 := by
  unfold liveRefusal
  by_cases other : page.proposalUuid ≠ snapshot.uuid
  · rw [if_pos other]
    exact .refl memory
  rw [if_neg other]
  have grows : Grows memory (checkInRun engineSort sha256 verifyTypedDecision memory page snapshot.uuid).2 :=
    checkInRun_grows
  cases checked : checkInRun engineSort sha256 verifyTypedDecision memory page snapshot.uuid with
  | mk result later =>
    rw [checked] at grows
    cases result <;> exact grows

theorem confirmReason_detail {signed : ProposalDetail} {note : Option JsString}
    (ready : confirmReason snapshot reason = .ok (signed, note)) : signed = snapshot.detail := by
  unfold confirmReason at ready
  cases kindIs : snapshot.kind with
  | approve =>
    rw [kindIs] at ready
    exact (Prod.mk.inj (Except.ok.inj ready)).1.symm
  | reject =>
    simp only [kindIs] at ready
    split_ifs at ready
    exact (Prod.mk.inj (Except.ok.inj ready)).1.symm

-- What the page's latest fetch makes of a tap, none being no fetch
def liveOutcome (engineSort : List JsValue → Except JsError (List JsValue)) (sha256 : Bytes → Bytes)
    (verifyTypedDecision : ProposalDetail → Option Typed) (memory : Memory) (snapshot : Snapshot) :
    Option ProposalDetail → Option ConfirmRefusal × Memory
  | some page => liveRefusal engineSort sha256 verifyTypedDecision memory snapshot page
  | none => (none, memory)

theorem liveOutcome_grows :
    Grows memory (liveOutcome engineSort sha256 verifyTypedDecision memory snapshot live).2 := by
  cases live with
  | none => exact .refl memory
  | some page => exact liveRefusal_grows

-- A live page that is refused stops the confirmation; else it goes on from what the page has added.
theorem confirmSigning_live :
    (∃ refusal, confirmSigning engineSort sha256 verifyTypedDecision memory snapshot live reason =
      (.error refusal, (liveOutcome engineSort sha256 verifyTypedDecision memory snapshot live).2)) ∨
    confirmSigning engineSort sha256 verifyTypedDecision memory snapshot live reason =
      confirmSigning engineSort sha256 verifyTypedDecision
        (liveOutcome engineSort sha256 verifyTypedDecision memory snapshot live).2 snapshot none reason := by
  cases live with
  | none => exact .inr rfl
  | some page =>
    unfold confirmSigning liveOutcome
    dsimp only
    cases liveRefusal engineSort sha256 verifyTypedDecision memory snapshot page with
    | mk refused after =>
      cases refused with
      | some refusal => exact .inl ⟨refusal, rfl⟩
      | none => exact .inr rfl

variable (engineSort sha256 verifyTypedDecision memory snapshot live reason) in
theorem confirmSigning_outcome :
    (∃ refusal, confirmSigning engineSort sha256 verifyTypedDecision memory snapshot live reason =
      (.error refusal, (liveOutcome engineSort sha256 verifyTypedDecision memory snapshot live).2)) ∨
    ((liveOutcome engineSort sha256 verifyTypedDecision memory snapshot live).2.changed snapshot.uuid = false ∧
      confirmSigning engineSort sha256 verifyTypedDecision memory snapshot live reason =
        (confirmReason snapshot reason, (liveOutcome engineSort sha256 verifyTypedDecision memory snapshot live).2)) := by
  have unrolled := @confirmSigning_live engineSort sha256 verifyTypedDecision memory snapshot live reason
  rcases unrolled with refused | same
  · exact .inl refused
  rw [same]
  unfold confirmSigning
  simp only
  split_ifs with changed
  · exact .inl ⟨.changed, rfl⟩
  · cases checkDecision engineSort sha256 verifyTypedDecision snapshot.detail with
    | failed _ _ _ => exact .inl ⟨.tampered, rfl⟩
    | genuine hash typed =>
      simp only
      split_ifs
      · exact .inl ⟨.tampered, rfl⟩
      · exact .inr ⟨by simpa using changed, rfl⟩

theorem beginConfirm_grows {tap : Tap} {sheet : Option Snapshot} :
    Grows memory (beginConfirm engineSort sha256 verifyTypedDecision memory sheet tap).2 := by
  unfold beginConfirm
  cases sheet with
  | none => exact .refl memory
  | some snapshot =>
    simp only
    by_cases idle : (tap.inFlight || !tap.isOpen) = true
    · rw [if_pos idle]
      exact .refl memory
    rw [if_neg idle]
    by_cases offered : (!stillOffered snapshot.kind tap.actions) = true
    · rw [if_pos offered]
      exact .refl memory
    rw [if_neg offered]
    have grows : Grows memory (liveOutcome engineSort sha256 verifyTypedDecision memory snapshot tap.live).2 :=
      liveOutcome_grows
    rcases confirmSigning_outcome engineSort sha256 verifyTypedDecision memory snapshot tap.live tap.reason
      with ⟨refusal, result⟩ | ⟨_, result⟩ <;> rw [result]
    · exact grows
    · cases confirmReason snapshot tap.reason <;> exact grows

theorem beginConfirm_sign {tap : Tap} {sheet : Option Snapshot} {signed : ProposalDetail} {note : Option JsString}
    (ready : (beginConfirm engineSort sha256 verifyTypedDecision memory sheet tap).1 = .sign signed note) :
    ∃ snapshot, sheet = some snapshot ∧ signed = snapshot.detail ∧ memory.changed snapshot.uuid = false := by
  unfold beginConfirm at ready
  cases sheet with
  | none => cases ready
  | some snapshot =>
    simp only at ready
    by_cases idle : (tap.inFlight || !tap.isOpen) = true
    · rw [if_pos idle] at ready
      cases ready
    rw [if_neg idle] at ready
    by_cases offered : (!stillOffered snapshot.kind tap.actions) = true
    · rw [if_pos offered] at ready
      cases ready
    rw [if_neg offered] at ready
    rcases confirmSigning_outcome engineSort sha256 verifyTypedDecision memory snapshot tap.live tap.reason
      with ⟨refusal, result⟩ | ⟨unchanged, result⟩
    · rw [result] at ready
      cases ready
    · rw [result] at ready
      cases noted : confirmReason snapshot tap.reason with
      | error refusal =>
        rw [noted] at ready
        cases ready
      | ok pair =>
        obtain ⟨detail', note'⟩ := pair
        rw [noted] at ready
        have fresh : memory.changed snapshot.uuid = false := by
          by_contra marked
          have later : (liveOutcome engineSort sha256 verifyTypedDecision memory snapshot tap.live).2.changed
              snapshot.uuid = true := liveOutcome_grows.changed _ (by simpa using marked)
          rw [unchanged] at later
          cases later
        injection ready with same
        exact ⟨snapshot, rfl, same ▸ confirmReason_detail noted, fresh⟩

/-! ## Runs -/

variable (engineSort sha256 verifyTypedDecision) in
structure Kept (app : App) : Prop where
  fetched : ∀ f ∈ app.fetched, Seen engineSort sha256 verifyTypedDecision app.memory f.1 f.2
  sheets : ∀ sheet ∈ app.sheets, Frozen engineSort sha256 verifyTypedDecision app.memory sheet

theorem Frozen.grows {later : Memory} {sheet : Sheet}
    (frozen : Frozen engineSort sha256 verifyTypedDecision memory sheet) (grows : Grows memory later) :
    Frozen engineSort sha256 verifyTypedDecision later sheet :=
  { frozen with seen := frozen.seen.grows grows }

theorem Kept.grows {app : App} {later : Memory} (kept : Kept engineSort sha256 verifyTypedDecision app)
    (grows : Grows app.memory later) : Kept engineSort sha256 verifyTypedDecision { app with memory := later } where
  fetched f listed := (kept.fetched f listed).grows grows
  sheets sheet listed := (kept.sheets sheet listed).grows grows

theorem appStep_kept {app : App} (kept : Kept engineSort sha256 verifyTypedDecision app) (event : AppEvent) :
    Kept engineSort sha256 verifyTypedDecision
      (appStep engineSort sha256 keccak256 verifyTypedDecision app event) := by
  cases event with
  | fetch route detail =>
    refine ⟨fun f listed => ?_, (kept.grows checkInRun_grows).sheets⟩
    rcases List.mem_append.mp listed with earlier | new
    · exact (kept.fetched f earlier).grows checkInRun_grows
    · obtain rfl := List.mem_singleton.mp new
      exact checkInRun_seen
  | openSheet route detail kind actions fingerprint =>
    have grows : Grows app.memory (openSigningSheet engineSort sha256 keccak256 verifyTypedDecision app.memory detail
        route kind actions fingerprint).2 := openSigningSheet_grows
    rw [appStep]
    cases opened : openSigningSheet engineSort sha256 keccak256 verifyTypedDecision app.memory detail route kind actions
        fingerprint with
    | mk result later =>
      rw [opened] at grows
      cases result with
      | error refusal => exact kept.grows grows
      | ok snapshot =>
        refine ⟨(kept.grows grows).fetched, fun sheet listed => ?_⟩
        rcases List.mem_append.mp listed with earlier | new
        · exact (kept.grows grows).sheets sheet earlier
        · obtain rfl := List.mem_singleton.mp new
          exact (openSigningSheet_ok opened).2
  | confirm sheet tap => exact kept.grows beginConfirm_grows

variable (engineSort sha256 keccak256 verifyTypedDecision) in
def appRun (events : List AppEvent) : App :=
  Runs.run (appStep engineSort sha256 keccak256 verifyTypedDecision) App.start events

theorem appRun_kept (events : List AppEvent) :
    Kept engineSort sha256 verifyTypedDecision (appRun engineSort sha256 keccak256 verifyTypedDecision events) := by
  have preserved (app : App) (event : AppEvent) (kept : Kept engineSort sha256 verifyTypedDecision app) (_ : True) :
      Kept engineSort sha256 verifyTypedDecision (appStep engineSort sha256 keccak256 verifyTypedDecision app event) :=
    appStep_kept kept event
  have start : Kept engineSort sha256 verifyTypedDecision App.start :=
    { fetched := fun f listed => (nomatch listed), sheets := fun sheet listed => (nomatch listed) }
  exact Runs.run_invariant preserved _ events start (Runs.guarded_of_forall (fun _ _ _ => trivial) _)

variable (engineSort sha256 verifyTypedDecision) in
-- Two fetches of a decision that carried different content, or one that named another decision
def Disagreed (fetched : List (JsString × ProposalDetail)) (route : JsString) : Prop :=
  (∃ d d', (route, d) ∈ fetched ∧ (route, d') ∈ fetched ∧ (d.signingInputs ≠ d'.signingInputs ∨
    derivedHash engineSort sha256 verifyTypedDecision d ≠ derivedHash engineSort sha256 verifyTypedDecision d')) ∨
  ∃ d, (route, d) ∈ fetched ∧ ¬ Names d route

theorem seen_same {d d' : ProposalDetail} (unmarked : memory.changed route = false)
    (seen : Seen engineSort sha256 verifyTypedDecision memory route d)
    (seen' : Seen engineSort sha256 verifyTypedDecision memory route d') :
    d.signingInputs = d'.signingInputs ∧
      derivedHash engineSort sha256 verifyTypedDecision d = derivedHash engineSort sha256 verifyTypedDecision d' := by
  rcases seen with marked | ⟨_, first⟩
  · rw [marked] at unmarked
    cases unmarked
  rcases seen' with marked | ⟨_, first'⟩
  · rw [marked] at unmarked
    cases unmarked
  rw [first] at first'
  exact signedContentKey_injective (derived_unbarred d) (derived_unbarred d') (Option.some.inj first')

theorem disagreed_marked {app : App} (kept : Kept engineSort sha256 verifyTypedDecision app)
    (disagreed : Disagreed engineSort sha256 verifyTypedDecision app.fetched route) :
    app.memory.changed route = true := by
  by_contra unmarked
  have fresh : app.memory.changed route = false := by simpa using unmarked
  rcases disagreed with ⟨d, d', fetched, fetched', different⟩ | ⟨d, fetched, other⟩
  · obtain ⟨inputs, hashes⟩ := seen_same fresh (kept.fetched _ fetched) (kept.fetched _ fetched')
    exact different.elim (· inputs) (· hashes)
  · rcases kept.fetched _ fetched with marked | ⟨names, _⟩
    · exact unmarked marked
    · exact other names

theorem appStep_fetched (app : App) (event : AppEvent) :
    app.fetched ⊆ (appStep engineSort sha256 keccak256 verifyTypedDecision app event).fetched := by
  cases event with
  | fetch route detail => exact List.subset_append_left _ _
  | openSheet route detail kind actions fingerprint =>
    rw [appStep]
    cases openSigningSheet engineSort sha256 keccak256 verifyTypedDecision app.memory detail route kind actions
        fingerprint with
    | mk result later => cases result <;> exact List.Subset.refl _
  | confirm sheet tap => exact List.Subset.refl _

theorem run_fetched (app : App) (events : List AppEvent) :
    app.fetched ⊆ (Runs.run (appStep engineSort sha256 keccak256 verifyTypedDecision) app events).fetched := by
  induction events generalizing app with
  | nil => exact List.Subset.refl _
  | cons event rest ih => exact List.Subset.trans (appStep_fetched app event) (ih _)

theorem Disagreed.more {fetched more : List (JsString × ProposalDetail)}
    (disagreed : Disagreed engineSort sha256 verifyTypedDecision fetched route) (grown : fetched ⊆ more) :
    Disagreed engineSort sha256 verifyTypedDecision more route := by
  rcases disagreed with ⟨d, d', first, second, different⟩ | ⟨d, first, other⟩
  · exact .inl ⟨d, d', grown first, grown second, different⟩
  · exact .inr ⟨d, grown first, other⟩

variable (engineSort sha256 keccak256 verifyTypedDecision) in
/-- A confirmation signs what the sheet froze when it was opened, for the decision it was opened for, and only while every
fetch of that decision carried the same content. Once a decision disagreed, nothing of it is opened or signed. -/
theorem signed_content_kept (events : List AppEvent) :
    let app := appRun engineSort sha256 keccak256 verifyTypedDecision events
    (∀ sheet ∈ app.sheets, ∀ (tap : Tap) (signed : ProposalDetail) (note : Option JsString),
      (beginConfirm engineSort sha256 verifyTypedDecision app.memory (some sheet.snapshot) tap).1 = .sign signed note →
      signed = sheet.snapshot.detail ∧ signed = sheet.opened ∧ Names signed sheet.route ∧
        ∀ detail, (sheet.route, detail) ∈ app.fetched → detail.signingInputs = signed.signingInputs ∧
          derivedHash engineSort sha256 verifyTypedDecision detail = sheet.snapshot.hash) ∧
    (∀ route, Disagreed engineSort sha256 verifyTypedDecision app.fetched route → ∀ events' : List AppEvent,
      let later := appRun engineSort sha256 keccak256 verifyTypedDecision (events ++ events')
      (∀ detail kind actions fingerprint snapshot, (openSigningSheet engineSort sha256 keccak256 verifyTypedDecision
        later.memory detail route kind actions fingerprint).1 ≠ .ok snapshot) ∧
      ∀ sheet ∈ later.sheets, sheet.route = route → ∀ tap signed note,
        (beginConfirm engineSort sha256 verifyTypedDecision later.memory (some sheet.snapshot) tap).1 ≠
          .sign signed note) := by
  refine ⟨?signs, ?stops⟩
  case signs =>
    intro sheet listed tap signed note ready
    have kept : Kept engineSort sha256 verifyTypedDecision
        (appRun engineSort sha256 keccak256 verifyTypedDecision events) := appRun_kept events
    have frozen := kept.sheets sheet listed
    obtain ⟨snapshot, isSnapshot, rfl, unmarked⟩ := beginConfirm_sign ready
    obtain rfl := Option.some.inj isSnapshot
    rw [frozen.uuid] at unmarked
    refine ⟨rfl, frozen.detail, by rw [frozen.detail]; exact frozen.names, fun detail fetched => ?_⟩
    rw [frozen.detail, frozen.hash]
    exact seen_same unmarked (kept.fetched _ fetched) frozen.seen
  case stops =>
    intro route disagreed events' later
    have kept : Kept engineSort sha256 verifyTypedDecision later := appRun_kept (events ++ events')
    have grown : (appRun engineSort sha256 keccak256 verifyTypedDecision events).fetched ⊆ later.fetched := by
      have further : later = Runs.run _ (appRun engineSort sha256 keccak256 verifyTypedDecision events) events' :=
        Runs.run_append _ events events'
      rw [further]
      exact run_fetched _ events'
    have marked := disagreed_marked kept (disagreed.more grown)
    refine ⟨fun detail kind actions fingerprint snapshot opened => ?_, fun sheet listed same tap signed note ready => ?_⟩
    · have unmarked := (openSigningSheet_ok (Prod.ext opened rfl)).1
      rw [marked] at unmarked
      cases unmarked
    · obtain ⟨snapshot, isSnapshot, _, unmarked⟩ := beginConfirm_sign ready
      rw [← Option.some.inj isSnapshot, (kept.sheets sheet listed).uuid, same, marked] at unmarked
      cases unmarked

end Sheets

/-! ### A decision that is fetched, opened and signed -/

def zeroHash (_ : Bytes) : Bytes := List.replicate 32 0

def small (n : Nat) (bound : n ≤ JsNumber.maxSafe) : SafeInt := ⟨n, bound⟩

def shippedInputs : SigningInputs where
  vaultId := small 1 (by decide)
  proposalId := js "uuid-1"
  actionText := js "Ship it"
  fileSha256 := none
  M := small 1 (by decide)
  N := small 2 (by decide)
  signers := [small 5 (by decide), small 7 (by decide)]
  nonce := js "00"
  createdAt := js "2026-01-01T00:00:00Z"
  action := none

def shippedDetail : ProposalDetail where
  proposalUuid := js "uuid-1"
  payloadHash := utf16 (hexText (zeroHash []))
  actionText := js "Ship it"
  requiredM := shippedInputs.M
  requiredN := shippedInputs.N
  signingInputs := shippedInputs
  execution := none
  decisionType := .undefined
  decisionFields := .undefined
  templateVersion := .undefined

def untyped (_ : ProposalDetail) : Option Typed := some ⟨none, none⟩

def shippedEvents : List AppEvent :=
  [.fetch (js "uuid-1") shippedDetail, .openSheet (js "uuid-1") shippedDetail .approve .sign (js "key")]

def shippedSheet : Sheet where
  route := js "uuid-1"
  opened := shippedDetail
  snapshot :=
    { kind := .approve
      uuid := js "uuid-1"
      detail := shippedDetail
      hash := utf16 (hexText (zeroHash []))
      contentKey := signedContentKey shippedInputs.value (utf16 (hexText (zeroHash []))) }

def shippedTap : Tap := ⟨false, true, .sign, some shippedDetail, []⟩

theorem shipped_hash : payloadHash .ok zeroHash shippedInputs.value = .ok shippedDetail.payloadHash := by
  have written : (proposalSigningBytes .ok shippedInputs.value).toOption.isSome = true := by decide
  unfold payloadHash
  cases signed : proposalSigningBytes .ok shippedInputs.value with
  | error e =>
    rw [signed] at written
    cases written
  | ok bytes => rfl

theorem shipped_genuine : checkDecision .ok zeroHash untyped shippedDetail = .genuine shippedDetail.payloadHash ⟨none, none⟩ := by
  have passes : verifyProposalIntegrity .ok zeroHash shippedDetail = .ok shippedDetail.payloadHash := by
    have display : displayRefusal shippedDetail true = none := by decide
    unfold verifyProposalIntegrity
    rw [show shippedDetail.signingInputs = shippedInputs from rfl, shipped_hash]
    simp only [Except.mapError, ok_bind, ne_eq, not_true_eq_false, if_false]
    rw [show describes shippedInputs = .ok true from rfl, ok_bind, display]
  unfold checkDecision
  rw [passes]
  rfl

theorem shipped_names : ¬ (shippedDetail.proposalUuid ≠ js "uuid-1" ∨
    shippedDetail.signingInputs.proposalId ≠ js "uuid-1") := by
  simp [shippedDetail, shippedInputs]

def shippedMemory : Memory :=
  { Memory.empty with first := Function.update Memory.empty.first (js "uuid-1") (some shippedSheet.snapshot.contentKey) }

theorem shipped_fetched : checkInRun .ok zeroHash untyped Memory.empty shippedDetail (js "uuid-1") =
    (.genuine shippedDetail.payloadHash ⟨none, none⟩, shippedMemory) := by
  unfold checkInRun
  simp only [shipped_genuine, if_neg shipped_names]
  rfl

theorem shipped_again : checkInRun .ok zeroHash untyped shippedMemory shippedDetail (js "uuid-1") =
    (.genuine shippedDetail.payloadHash ⟨none, none⟩, shippedMemory) := by
  have seen : shippedMemory.see (js "uuid-1") shippedSheet.snapshot.contentKey = (.same, shippedMemory) := by
    simp [Memory.see, shippedMemory, Memory.empty]
  unfold checkInRun
  simp only [shipped_genuine, if_neg shipped_names]
  rw [show signedContentKey shippedDetail.signingInputs.value
    (Checked.genuine shippedDetail.payloadHash ⟨none, none⟩).derived = shippedSheet.snapshot.contentKey from rfl, seen]
  rfl

theorem shipped_run : appRun .ok zeroHash zeroHash untyped shippedEvents =
    ⟨shippedMemory, [shippedSheet], [(js "uuid-1", shippedDetail)]⟩ := by
  have opened : openSigningSheet .ok zeroHash zeroHash untyped shippedMemory shippedDetail (js "uuid-1") .approve .sign
      (js "key") = (.ok shippedSheet.snapshot, shippedMemory) := by
    unfold openSigningSheet
    rw [if_neg (by decide), shipped_again]
    rfl
  unfold appRun shippedEvents
  rw [Runs.run_cons, Runs.run_cons, Runs.run_nil, appStep, show App.start.memory = Memory.empty from rfl, shipped_fetched]
  simp only [appStep, opened]
  rfl

theorem shipped_signs : (beginConfirm .ok zeroHash untyped shippedMemory (some shippedSheet.snapshot) shippedTap).1 =
    .sign shippedDetail none := by
  have live : liveRefusal .ok zeroHash untyped shippedMemory shippedSheet.snapshot shippedDetail = (none, shippedMemory) := by
    unfold liveRefusal
    rw [if_neg (by simp [shippedDetail, shippedSheet]), show shippedSheet.snapshot.uuid = js "uuid-1" from rfl,
      shipped_again]
    simp only
    rw [if_neg (by simp [shippedSheet, shippedDetail])]
  unfold beginConfirm confirmSigning
  simp only [shippedTap, live, show shippedSheet.snapshot.detail = shippedDetail from rfl, shipped_genuine]
  rfl

theorem signed_content_kept_sample : Names shippedDetail shippedSheet.route ∧
    ∀ detail, (shippedSheet.route, detail) ∈ (appRun .ok zeroHash zeroHash untyped shippedEvents).fetched →
      detail.signingInputs = shippedInputs := by
  obtain ⟨_, _, names, same⟩ := (signed_content_kept .ok zeroHash zeroHash untyped shippedEvents).1 shippedSheet
    (by rw [shipped_run]; exact List.mem_singleton_self _) shippedTap shippedDetail none
    (by rw [shipped_run]; exact shipped_signs)
  exact ⟨names, fun detail fetched => (same detail fetched).1⟩

end QVault.Proof.Mobile
