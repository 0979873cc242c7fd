import SealedPost.Proofs.Keyring

/-!
# Attempts at storing an identity

An identity is spread over slots that are saved one by one, and nothing is taken back where a save
fails. So an attempt writes the first few of its slots, and a run of attempts leaves in each slot
what the last attempt that got there has saved (`Keyring.get?_run`). What loads after a run from the
empty store is read off that: `Keyring.loadSigningKey?_run` and `Keyring.loadPair?_run`.
-/

namespace SealedPost

/-! ## How far a fault lets the saves go -/

namespace IdentitySlots

/-- The slots that are saved before a fault, of those that are to be saved in this order. -/
def reach (fault : Option SaveFault) (order : List IdentitySlot) : List IdentitySlot :=
  match fault with
  | none => order
  | some fault => order.take fault.after

/-- What is reported where these slots are to be saved. -/
def report (fault : Option SaveFault) (order : List IdentitySlot) : Option StoreError :=
  match fault with
  | none => none
  | some fault => if order.length ≤ fault.after then none else some fault.error

theorem saveAll_eq (fault : Option SaveFault) (text : IdentitySlot → String)
    (order : List IdentitySlot) (slots : IdentitySlots) :
    saveAll fault (order.map fun s => (s, text s)) slots =
      (putAll ((reach fault order).map fun s => (s, text s)) slots, report fault order) := by
  cases fault with
  | none => rw [saveAll_none, reach, report]
  | some fault => rw [saveAll_some, List.length_map, ← List.map_take, reach, report]

theorem get?_putAll (text : IdentitySlot → String) (order : List IdentitySlot)
    (slots : IdentitySlots) (slot : IdentitySlot) :
    (putAll (order.map fun s => (s, text s)) slots).get? slot =
      if slot ∈ order then some (text slot) else slots.get? slot := by
  induction order generalizing slots with
  | nil => simp [putAll]
  | cons first rest ih =>
    have step := ih (slots.set first (text first))
    by_cases mem : slot ∈ rest
    · simpa [putAll, mem] using step
    · by_cases same : slot = first
      · subst same
        simpa [putAll, mem] using step
      · simpa [putAll, mem, same] using step

theorem report_eq_none_iff {fault : Option SaveFault} {order : List IdentitySlot} :
    report fault order = none ↔ reach fault order = order := by
  cases fault with
  | none => simp [report, reach]
  | some fault =>
    simp only [report, reach, ite_eq_left_iff, reduceCtorEq, imp_false, Nat.not_le, Nat.not_lt]
    constructor
    · exact List.take_of_length_le
    · intro all
      have := congrArg List.length all
      rw [List.length_take] at this
      omega

/-- Where the last slot is reached, all are. -/
theorem last_mem_reach_iff {fault : Option SaveFault} (front : List IdentitySlot)
    {last : IdentitySlot} (fresh : last ∉ front) :
    last ∈ reach fault (front ++ [last]) ↔ reach fault (front ++ [last]) = front ++ [last] := by
  constructor
  · intro mem
    cases fault with
    | none => rfl
    | some fault =>
      refine List.take_of_length_le ?_
      rw [List.length_append, List.length_singleton]
      refine Nat.lt_of_not_le fun short => fresh ?_
      rw [reach, List.take_append_of_le_length short] at mem
      exact List.mem_of_mem_take mem
  · intro all
    rw [all]
    exact List.mem_append_right _ (List.mem_singleton_self last)

end IdentitySlots

/-! ## Identities that are stored -/

namespace Identity
variable [Curve]

/-- What a draw gives: the identity of the bytes that were drawn as a seed, if they are one. -/
def ofAnswer? (answer : Option Bytes) : Option Identity :=
  (answer.bind (Octets.ofBytes? 16)).bind fun octets => (ofSeed ⟨octets⟩).toOption

theorem ofAnswer?_eq_some_iff {answer : Option Bytes} {identity : Identity} :
    ofAnswer? answer = some identity ↔
      answer = some identity.seed.octets.bytes ∧ ofSeed identity.seed = .ok identity := by
  simp only [ofAnswer?, Option.bind_eq_some_iff, Octets.ofBytes?_eq_some_iff,
    toOption_eq_some_iff]
  constructor
  · rintro ⟨octets, ⟨b, rfl, rfl⟩, derived⟩
    obtain ⟨rfl, -⟩ := ofSeed_eq_ok_iff.1 derived
    exact ⟨rfl, derived⟩
  · rintro ⟨rfl, derived⟩
    exact ⟨identity.seed.octets, ⟨_, rfl, rfl⟩, derived⟩

theorem draw_cons (attempts : Nat) (answer : Option Bytes) (rest : Entropy) :
    draw (attempts + 1) (answer :: rest) =
      match ofAnswer? answer with
      | some identity => (some identity, rest)
      | none => draw attempts rest := by
  simp only [draw, Entropy.draw, ofAnswer?]
  cases answer.bind (Octets.ofBytes? 16) with
  | none => rfl
  | some octets => cases h : ofSeed ⟨octets⟩ <;> simp [h, Except.toOption]

theorem draw_nil (attempts : Nat) : draw attempts [] = (none, []) := by
  induction attempts with
  | zero => rfl
  | succ attempts ih => simpa [draw, Entropy.draw] using ih

/-- The identity of the first draw that gives one, and the draws after it. -/
def Drawn (source : Entropy) (identity : Identity) (rest : Entropy) : Prop :=
  ofSeed identity.seed = .ok identity ∧ ∃ failed : Entropy,
    source = failed ++ some identity.seed.octets.bytes :: rest ∧
      ∀ answer ∈ failed, ofAnswer? answer = none

theorem not_drawn_nil {identity : Identity} {rest : Entropy} : ¬Drawn [] identity rest := by
  rintro ⟨-, failed, listed, -⟩
  cases failed <;> cases listed

/-- The first answer gives the identity, or gives none and leaves it to those after it. -/
theorem drawn_cons_iff {answer : Option Bytes} {source rest : Entropy} {identity : Identity} :
    Drawn (answer :: source) identity rest ↔
      ofAnswer? answer = some identity ∧ rest = source ∨
        ofAnswer? answer = none ∧ Drawn source identity rest := by
  constructor
  · rintro ⟨derived, failed, listed, before⟩
    cases failed with
    | nil =>
      obtain ⟨rfl, rfl⟩ := List.cons.inj listed
      exact .inl ⟨ofAnswer?_eq_some_iff.2 ⟨rfl, derived⟩, rfl⟩
    | cons first failed =>
      obtain ⟨rfl, rfl⟩ := List.cons.inj listed
      obtain ⟨none, before⟩ := List.forall_mem_cons.1 before
      exact .inr ⟨none, derived, failed, rfl, before⟩
  · rintro (⟨given, rfl⟩ | ⟨none, derived, failed, rfl, before⟩)
    · obtain ⟨rfl, derived⟩ := ofAnswer?_eq_some_iff.1 given
      exact ⟨derived, [], rfl, by simp⟩
    · exact ⟨derived, answer :: failed, rfl, List.forall_mem_cons.2 ⟨none, before⟩⟩

theorem Drawn.length_lt {source rest : Entropy} {identity : Identity}
    (drawn : Drawn source identity rest) : rest.length < source.length := by
  obtain ⟨-, failed, rfl, -⟩ := drawn
  simp only [List.length_append, List.length_cons]
  omega

/-- **The identity that is drawn is that of the first draw that gives one**, and no more draws are
taken than there are attempts. -/
theorem draw_eq_some_iff {attempts : Nat} {source rest : Entropy} {identity : Identity} :
    draw attempts source = (some identity, rest) ↔
      Drawn source identity rest ∧ source.length ≤ rest.length + attempts := by
  induction attempts generalizing source with
  | zero =>
    simp only [draw, Prod.mk.injEq, reduceCtorEq, false_and, false_iff, not_and]
    intro drawn
    have := drawn.length_lt
    omega
  | succ attempts ih =>
    cases source with
    | nil => simp [draw_nil, not_drawn_nil]
    | cons answer source =>
      rw [draw_cons, drawn_cons_iff]
      cases given : ofAnswer? answer with
      | some drawn =>
        simp only [Prod.mk.injEq, Option.some.injEq, reduceCtorEq, false_and, or_false]
        constructor
        · rintro ⟨rfl, rfl⟩
          exact ⟨⟨rfl, rfl⟩, by rw [List.length_cons]; omega⟩
        · rintro ⟨⟨rfl, rfl⟩, -⟩
          exact ⟨rfl, rfl⟩
      | none =>
        simp only [ih, reduceCtorEq, false_and, true_and, false_or, List.length_cons]
        exact and_congr_right fun _ => by omega

/-- Where none of the permitted draws gives an identity, all of them are taken. -/
theorem draw_eq_none_iff {attempts : Nat} {source rest : Entropy} :
    draw attempts source = (none, rest) ↔
      rest = source.drop attempts ∧ ∀ answer ∈ source.take attempts, ofAnswer? answer = none := by
  induction attempts generalizing source with
  | zero => simp [draw, eq_comm]
  | succ attempts ih =>
    cases source with
    | nil => simp [draw_nil, eq_comm]
    | cons answer source =>
      rw [draw_cons, List.drop_succ_cons, List.take_succ_cons, List.forall_mem_cons]
      cases given : ofAnswer? answer with
      | some drawn => simp
      | none => simpa using ih

theorem generate_eq_ok_iff {source rest : Entropy} {identity : Identity} :
    generate source = (.ok identity, rest) ↔
      Drawn source identity rest ∧ source.length ≤ rest.length + attemptLimit := by
  rw [← draw_eq_some_iff, generate]
  cases draw attemptLimit source with
  | mk drawn more => cases drawn <;> simp

theorem generate_eq_error_iff {source rest : Entropy} {reason : IdentityError} :
    generate source = (.error reason, rest) ↔
      reason = .derivation attemptLimit ∧ rest = source.drop attemptLimit ∧
        ∀ answer ∈ source.take attemptLimit, ofAnswer? answer = none := by
  rw [← draw_eq_none_iff, generate]
  cases draw attemptLimit source with
  | mk drawn more => cases drawn <;> simp [eq_comm]

theorem drawn_of_generate {source rest : Entropy} {identity : Identity}
    (h : generate source = (.ok identity, rest)) : Drawn source identity rest :=
  (generate_eq_ok_iff.1 h).1

end Identity

namespace Keyring
variable [Curve]

/-- The text of an identity that belongs into a slot. -/
def text (identity : Identity) : IdentitySlot → String
  | .seed => identity.seed.toHex
  | .identityPublic => Text.Base64.encode identity.pair.publicKey.bytes
  | .identityPrivate => Text.Base64.encode identity.pair.secret.bytes
  | .signingPublic => Text.Base64.encode identity.signing.publicKey.bytes
  | .signingSecret => Text.Base64.encode identity.signing.toBytes.bytes

theorem get?_holding (identity : Identity) (slot : IdentitySlot) :
    (holding identity).get? slot = some (text identity slot) := by
  cases slot <;> rfl

/-- The slots with an identity put into some of them. -/
def put (identity : Identity) (order : List IdentitySlot) (slots : IdentitySlots) : IdentitySlots :=
  IdentitySlots.putAll (order.map fun s => (s, text identity s)) slots

theorem get?_put (identity : Identity) (order : List IdentitySlot) (slots : IdentitySlots)
    (slot : IdentitySlot) :
    (put identity order slots).get? slot =
      if slot ∈ order then some (text identity slot) else slots.get? slot :=
  IdentitySlots.get?_putAll _ order slots slot

theorem save_eq (fault : Option SaveFault) (identity : Identity) (slots : IdentitySlots) :
    save fault identity slots = (put identity (IdentitySlots.reach fault IdentitySlot.all) slots,
      IdentitySlots.report fault IdentitySlot.all) :=
  IdentitySlots.saveAll_eq fault (text identity) IdentitySlot.all slots

theorem restore_of_ofSeed {seed : Seed} {identity : Identity} (fault : Option SaveFault)
    (slots : IdentitySlots) (h : Identity.ofSeed seed = .ok identity) :
    restore fault seed slots =
      (match IdentitySlots.report fault IdentitySlot.all with
        | none => .ok identity
        | some reason => .error (.store reason),
      put identity (IdentitySlots.reach fault IdentitySlot.all) slots) := by
  simp only [restore, h, save_eq]
  cases IdentitySlots.report fault IdentitySlot.all <;> rfl

theorem migrate_of_generate {source rest : Entropy} {identity : Identity}
    (fault : Option SaveFault) (store : Store)
    (h : Identity.generate source = (.ok identity, rest)) :
    migrate fault source store =
      let slots := put identity (IdentitySlots.reach fault IdentitySlot.all) store.slots
      match IdentitySlots.report fault IdentitySlot.all with
      | none => (.ok identity.sessionId,
          { store with slots, push := { store.push with sessionId := some identity.sessionId } },
          rest)
      | some reason => (.error (.store reason), { store with slots }, rest) := by
  simp only [migrate, h, save_eq]
  cases IdentitySlots.report fault IdentitySlot.all <;> rfl

/-! ## Attempts -/

/-- What is to be done with a store. -/
inductive Task
  /-- The identity of a seed is to be restored. -/
  | restore (seed : Seed)
  /-- A fresh identity is to take the place of the old one. -/
  | migrate (source : Entropy)
  /-- The keys of a seed's identity are to be saved, without the seed. -/
  | saveKeys (seed : Seed)

/-- A task, and the save at which it fails, if one does. -/
structure Attempt where
  task : Task
  fault : Option SaveFault

/-- The identity that a task stores. -/
def Task.identity : Task → Except IdentityError Identity
  | .restore seed => Identity.ofSeed seed
  | .migrate source => (Identity.generate source).1
  | .saveKeys seed => Identity.ofSeed seed

/-- The slots that a task saves, in this order. -/
def Task.order : Task → List IdentitySlot
  | .restore _ => IdentitySlot.all
  | .migrate _ => IdentitySlot.all
  | .saveKeys _ => IdentitySlot.all.tail

theorem Task.ofSeed_of_identity {task : Task} {identity : Identity}
    (h : task.identity = .ok identity) : ∃ seed, Identity.ofSeed seed = .ok identity := by
  cases task with
  | restore seed => exact ⟨seed, h⟩
  | migrate source =>
    have drawn : Identity.Drawn source identity (Identity.generate source).2 :=
      Identity.drawn_of_generate (Prod.ext h rfl)
    exact ⟨identity.seed, drawn.1⟩
  | saveKeys seed => exact ⟨seed, h⟩

namespace Attempt

/-- Makes an attempt; answers what it reports and the store that it leaves. -/
def perform (a : Attempt) (store : Store) : Option KeyringError × Store :=
  match a.task with
  | .restore seed =>
    match restore a.fault seed store.slots with
    | (.ok _, slots) => (none, { store with slots })
    | (.error reason, slots) => (some reason, { store with slots })
  | .migrate source =>
    match migrate a.fault source store with
    | (.ok _, store, _) => (none, store)
    | (.error reason, store, _) => (some reason, store)
  | .saveKeys seed =>
    match Identity.ofSeed seed with
    | .error reason => (some (.identity reason), store)
    | .ok identity =>
      match IdentitySlots.saveAll a.fault (keyTexts identity) store.slots with
      | (slots, none) => (none, { store with slots })
      | (slots, some reason) => (some (.store reason), { store with slots })

/-- The slots that an attempt has saved when it ends. -/
def reached (a : Attempt) : List IdentitySlot :=
  match a.task.identity with
  | .ok _ => IdentitySlots.reach a.fault a.task.order
  | .error _ => []

/-- The identity that an attempt has saved into a slot. -/
def savedIn (slot : IdentitySlot) (a : Attempt) : Option Identity :=
  if slot ∈ a.reached then a.task.identity.toOption else none

/-- Where there is no identity to store, the store stays as it is. -/
theorem perform_of_error {a : Attempt} {reason : IdentityError}
    (h : a.task.identity = .error reason) (store : Store) :
    a.perform store = (some (.identity reason), store) := by
  obtain ⟨task, fault⟩ := a
  cases task with
  | restore seed =>
    have h : Identity.ofSeed seed = .error reason := h
    simp only [perform, restore, h]
  | migrate source =>
    have h : (Identity.generate source).1 = .error reason := h
    cases drawn : Identity.generate source with
    | mk result rest =>
      rw [drawn] at h
      simp only [perform, migrate, drawn, show result = .error reason from h]
  | saveKeys seed =>
    have h : Identity.ofSeed seed = .error reason := h
    simp only [perform, h]

/-- An identity is stored as far as the fault lets the attempt get. -/
theorem perform_of_ok {a : Attempt} {identity : Identity} (h : a.task.identity = .ok identity)
    (store : Store) :
    (a.perform store).1 = (IdentitySlots.report a.fault a.task.order).map .store ∧
    (a.perform store).2.slots = put identity a.reached store.slots ∧
    ((a.perform store).1 ≠ none → (a.perform store).2.push = store.push) := by
  have hreached : a.reached = IdentitySlots.reach a.fault a.task.order := by rw [reached, h]
  rw [hreached]
  obtain ⟨task, fault⟩ := a
  cases task with
  | restore seed =>
    have h : Identity.ofSeed seed = .ok identity := h
    simp only [perform, restore_of_ofSeed _ _ h, Task.order]
    cases IdentitySlots.report fault IdentitySlot.all <;> simp
  | migrate source =>
    have h : Identity.generate source = (.ok identity, (Identity.generate source).2) :=
      Prod.ext h rfl
    simp only [perform, migrate_of_generate _ _ h, Task.order]
    cases IdentitySlots.report fault IdentitySlot.all <;> simp
  | saveKeys seed =>
    have h : Identity.ofSeed seed = .ok identity := h
    have saves : IdentitySlots.saveAll fault (keyTexts identity) store.slots = _ :=
      IdentitySlots.saveAll_eq fault (text identity) IdentitySlot.all.tail store.slots
    simp only [perform, h, saves, Task.order]
    cases IdentitySlots.report fault IdentitySlot.all.tail <;> simp [put]

/-- What a slot holds after an attempt. -/
theorem get?_perform (a : Attempt) (store : Store) (slot : IdentitySlot) :
    (a.perform store).2.slots.get? slot =
      ((a.savedIn slot).map (text · slot)).or (store.slots.get? slot) := by
  cases h : a.task.identity with
  | error reason => simp [perform_of_error h, savedIn, reached, h]
  | ok identity =>
    rw [(perform_of_ok h store).2.1, get?_put, savedIn, h]
    split <;> simp [Except.toOption]

/-- The signing secret goes last. -/
theorem signingSecret_mem_reached_iff {a : Attempt} {identity : Identity}
    (h : a.task.identity = .ok identity) :
    .signingSecret ∈ a.reached ↔ a.reached = a.task.order := by
  rw [reached, h]
  obtain ⟨task, fault⟩ := a
  cases task with
  | restore | migrate =>
    exact IdentitySlots.last_mem_reach_iff
      [.seed, .identityPublic, .identityPrivate, .signingPublic] (by decide)
  | saveKeys =>
    exact IdentitySlots.last_mem_reach_iff
      [.identityPublic, .identityPrivate, .signingPublic] (by decide)

/-- An attempt that reports nothing has saved its signing secret, and any other has not. -/
theorem perform_eq_none_iff (a : Attempt) (store : Store) :
    (a.perform store).1 = none ↔ .signingSecret ∈ a.reached := by
  cases h : a.task.identity with
  | error reason => simp [perform_of_error h, reached, h]
  | ok identity =>
    rw [signingSecret_mem_reached_iff h, (perform_of_ok h store).1, Option.map_eq_none_iff,
      IdentitySlots.report_eq_none_iff, reached, h]

end Attempt

/-- Makes attempts one after the other; answers what each reports and the store that they leave. -/
def run : List Attempt → Store → List (Option KeyringError) × Store
  | [], store => ([], store)
  | a :: rest, store =>
    let (report, store) := a.perform store
    let (reports, store) := run rest store
    (report :: reports, store)

/-- The identity that was saved last into a slot. -/
def latest (slot : IdentitySlot) (attempts : List Attempt) : Option Identity :=
  attempts.reverse.findSome? (Attempt.savedIn slot)

theorem latest_cons (slot : IdentitySlot) (a : Attempt) (rest : List Attempt) :
    latest slot (a :: rest) = (latest slot rest).or (a.savedIn slot) := by
  simp [latest, List.findSome?_append]

/-- **Each slot holds what was saved into it last.** -/
theorem get?_run (attempts : List Attempt) (store : Store) (slot : IdentitySlot) :
    (run attempts store).2.slots.get? slot =
      ((latest slot attempts).map (text · slot)).or (store.slots.get? slot) := by
  induction attempts generalizing store with
  | nil => simp [run, latest]
  | cons a rest ih =>
    have later := ih (a.perform store).2
    rw [a.get?_perform] at later
    rw [latest_cons]
    cases h : latest slot rest <;> simpa [run, h] using later

/-! ## What loads after a run -/

/-- The bytes that a slot holds after a run from the empty store. -/
theorem slotOctets?_run {n : Nat} (slot : IdentitySlot) (octets : Identity → Octets n)
    (h : ∀ identity, text identity slot = Text.Base64.encode (octets identity).bytes)
    (attempts : List Attempt) :
    slotOctets? n (run attempts .empty).2.slots slot = (latest slot attempts).map octets := by
  have held := get?_run attempts .empty slot
  have bare : Store.empty.slots.get? slot = none := by cases slot <;> rfl
  rw [bare, Option.or_none] at held
  cases hlatest : latest slot attempts with
  | none =>
    rw [hlatest] at held
    simp only [slotOctets?, held, Option.map_none, Option.bind_eq_bind, Option.bind_none]
  | some identity => exact slotOctets?_of_get? (by rw [held, hlatest, ← h]; rfl)

theorem loadSigningKey?_run (attempts : List Attempt) :
    loadSigningKey? (run attempts .empty).2.slots =
      (latest .signingSecret attempts).map Identity.signing := by
  rw [loadSigningKey?, slotOctets?_run .signingSecret (fun i => i.signing.toBytes) fun _ => rfl]
  cases latest .signingSecret attempts with
  | none => rfl
  | some signed => exact SigningKey.ofBytes?_toBytes signed.signing

/-- The pair loads if the halves that were saved last fit together. -/
theorem loadPair?_run (attempts : List Attempt) :
    loadPair? (run attempts .empty).2.slots =
      (latest .identityPublic attempts).bind fun shown =>
        (latest .identityPrivate attempts).bind fun received =>
          if received.pair.publicKey = shown.pair.publicKey then some received.pair else none := by
  have hpublic := slotOctets?_run .identityPublic (fun i => i.pair.publicKey)
    (fun _ => rfl) attempts
  have hsecret := slotOctets?_run .identityPrivate (fun i => i.pair.secret)
    (fun _ => rfl) attempts
  rw [loadPair?, hpublic, hsecret]
  cases latest .identityPublic attempts with
  | none => rfl
  | some shown =>
    cases latest .identityPrivate attempts with
    | none => rfl
    | some received =>
      have own : KeyPair.ofSecret received.pair.secret = received.pair := KeyPair.ext rfl
      show (KeyPair.ofParts received.pair.secret shown.pair.publicKey).toOption = if _ then _ else _
      rw [KeyPair.ofParts, own]
      split <;> rfl

end Keyring

end SealedPost
