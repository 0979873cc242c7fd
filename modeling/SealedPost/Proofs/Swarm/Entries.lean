import SealedPost.Proofs.Json.Record
import SealedPost.Proofs.Swarm.Retrieval

/-!
# Which entries of a response are read

An entry is a record of a text and a time. It is read whatever the text is (`Entry.Reads`), and
gives an envelope if the text is base64 (`Gives`). As long as every entry can be read, each that
gives an envelope gives its own and the others are passed over (`kept_of_readable`). But one that
cannot be read takes all others with it, so an entry costs only itself exactly where there is no
such entry or nothing to lose: `costs_only_itself_iff`.
-/

namespace SealedPost.Retrieval
open Text

/-! ## Entries -/

/-- What stands in an entry for its text and for its time. A record is an object, or an array of its
fields in their order. -/
inductive Fields : Json → (data timestamp : Option Json) → Prop
  | object (members : List (String × Json)) :
      Fields (.obj members) (members.lookup "data") (members.lookup "timestamp")
  | nothing : Fields (.arr []) none none
  | untimed (data : Json) : Fields (.arr [data]) (some data) none
  | timed (data timestamp : Json) : Fields (.arr [data, timestamp]) (some data) (some timestamp)

/-- A time is an integer of 64 bits, and zero where there is none. -/
def Times (v : Option Json) (timestamp : Nat) : Prop :=
  v = none ∧ timestamp = 0 ∨ v = some (.int timestamp) ∧ timestamp < UInt64.size

/-- What an entry is read as. -/
def Entry.Reads (v : Json) (e : Entry) : Prop :=
  ∃ time, Fields v (some (.str e.data)) time ∧ Times time e.timestamp

/-- The bytes and the time that an entry gives, if its text is base64. -/
def Gives (v : Json) (content : Bytes) (timestamp : Nat) : Prop :=
  Entry.Reads v ⟨Base64.encode content, timestamp⟩

theorem natBelow?_eq_some_iff {bound n : Nat} {v : Json} :
    v.natBelow? bound = some n ↔ v = .int n ∧ n < bound := by
  constructor
  · intro h
    cases v with
    | int i =>
      simp only [Json.natBelow?] at h
      split at h
      · rename_i within
        obtain rfl := Option.some.inj h
        exact ⟨by simp [Int.toNat_of_nonneg within.1], by omega⟩
      · cases h
    | _ => cases h
  · rintro ⟨rfl, small⟩
    exact natBelow?_int small

/-- A time is read with zero as its default. -/
theorem times_iff {f : Json.Fields} {timestamp : Nat} :
    f.withDefault "timestamp" 0 (Json.natBelow? UInt64.size) = some timestamp ↔
      Times (f.get? "timestamp") timestamp := by
  unfold Json.Fields.withDefault Times
  cases f.get? "timestamp" with
  | none => simp [eq_comm]
  | some v => simp [natBelow?_eq_some_iff]

/-- An entry is read where it has these fields. -/
theorem fields_iff {v : Json} {data timestamp : Option Json} :
    Fields v data timestamp ↔ ∃ f, v.fields? true ["data", "timestamp"] = some f ∧
      f.get? "data" = data ∧ f.get? "timestamp" = timestamp := by
  constructor
  · rintro (_ | _ | _ | _) <;> exact ⟨_, rfl, rfl, rfl⟩
  · rintro ⟨f, hf, rfl, rfl⟩
    match v, hf with
    | .obj members, hf =>
      obtain rfl := Option.some.inj hf
      exact .object members
    | .arr [], hf =>
      obtain rfl := Option.some.inj hf
      exact .nothing
    | .arr [data], hf =>
      obtain rfl := Option.some.inj hf
      exact .untimed data
    | .arr [data, timestamp], hf =>
      obtain rfl := Option.some.inj hf
      exact .timed data timestamp
    | .arr (_ :: _ :: _ :: _), hf => simp [Json.fields?] at hf

/-- **An entry is read as its text and its time.** -/
theorem Entry.ofJson?_eq_some_iff {v : Json} {e : Entry} : ofJson? v = some e ↔ Reads v e := by
  constructor
  · intro read
    simp only [ofJson?, Option.bind_eq_bind, Option.bind_eq_some_iff] at read
    obtain ⟨f, hf, data, hdata, timestamp, htime, made⟩ := read
    obtain rfl := Option.some.inj made
    obtain ⟨d, hd, text⟩ := Option.bind_eq_some_iff.1 hdata
    obtain rfl := Json.text?_eq_some_iff.1 text
    exact ⟨_, fields_iff.2 ⟨f, hf, hd, rfl⟩, times_iff.1 htime⟩
  · rintro ⟨time, fields, times⟩
    obtain ⟨f, hf, hd, rfl⟩ := fields_iff.1 fields
    have hdata : f.required "data" Json.text? = some e.data := by
      rw [Json.Fields.required, hd]
      rfl
    rw [ofJson?, hf]
    simp only [Option.bind_eq_bind, Option.bind_some, hdata, times_iff.2 times]
    rfl

/-! ## Lists of entries -/

/-- Whether there is anything that an entry is read as. -/
def Readable (v : Json) : Prop := ∃ e, Entry.Reads v e

/-- An object can be read if it has a text, and a time or none. -/
theorem readable_obj_iff {members : List (String × Json)} :
    Readable (.obj members) ↔ (∃ text, members.lookup "data" = some (.str text)) ∧
      ∃ timestamp, Times (members.lookup "timestamp") timestamp := by
  constructor
  · rintro ⟨e, time, fields, times⟩
    obtain ⟨f, hf, hd, rfl⟩ := fields_iff.1 fields
    obtain rfl := Option.some.inj hf
    exact ⟨⟨e.data, hd⟩, e.timestamp, times⟩
  · rintro ⟨⟨text, hd⟩, timestamp, times⟩
    exact ⟨⟨text, timestamp⟩, _, hd ▸ Fields.object members, times⟩

/-- The envelopes that a list is worth: in order, one for each entry that gives one, whatever else
the list holds. -/
inductive Kept (group : String) : List Json → List Envelope → Prop
  | nil : Kept group [] []
  | give {v : Json} {content : Bytes} {timestamp : Nat} {items : List Json} {kept : List Envelope} :
      Gives v content timestamp → Kept group items kept →
        Kept group (v :: items) (.closedGroup group content timestamp :: kept)
  | drop {v : Json} {items : List Json} {kept : List Envelope} :
      (∀ content timestamp, ¬Gives v content timestamp) → Kept group items kept →
        Kept group (v :: items) kept

/-- What an entry is made into on its own. -/
def ownEnvelope? (group : String) (v : Json) : Option Envelope :=
  (Entry.ofJson? v).bind (Entry.envelope? group)

theorem ownEnvelope?_of_gives {group : String} {v : Json} {content : Bytes} {timestamp : Nat}
    (gives : Gives v content timestamp) :
    ownEnvelope? group v = some (.closedGroup group content timestamp) := by
  rw [ownEnvelope?, Entry.ofJson?_eq_some_iff.2 gives]
  exact envelope?_encode group content timestamp

theorem gives_of_ownEnvelope? {group : String} {v : Json} {envelope : Envelope}
    (own : ownEnvelope? group v = some envelope) :
    ∃ content timestamp, Gives v content timestamp := by
  obtain ⟨e, read, made⟩ := Option.bind_eq_some_iff.1 own
  obtain ⟨content, decoded, -⟩ := Option.map_eq_some_iff.1 made
  have text : e = ⟨Base64.encode content, e.timestamp⟩ := by
    rw [← Base64.decode?_eq_some_iff.1 decoded]
  exact ⟨content, e.timestamp, Entry.ofJson?_eq_some_iff.1 (text ▸ read)⟩

theorem ownEnvelope?_eq_none_iff {group : String} {v : Json} :
    ownEnvelope? group v = none ↔ ∀ content timestamp, ¬Gives v content timestamp := by
  constructor
  · intro none content timestamp gives
    rw [ownEnvelope?_of_gives gives] at none
    cases none
  · intro worthless
    refine Option.eq_none_iff_forall_ne_some.2 fun _ own => ?_
    obtain ⟨content, timestamp, gives⟩ := gives_of_ownEnvelope? own
    exact worthless content timestamp gives

/-- There is just one list of envelopes that a list of entries is worth. -/
theorem kept_iff {group : String} {items : List Json} {kept : List Envelope} :
    Kept group items kept ↔ kept = items.filterMap (ownEnvelope? group) := by
  constructor
  · intro h
    induction h with
    | nil => rfl
    | give gives _ ih => rw [List.filterMap_cons_some (ownEnvelope?_of_gives gives), ih]
    | drop worthless _ ih =>
      rw [List.filterMap_cons_none (ownEnvelope?_eq_none_iff.2 worthless), ih]
  · rintro rfl
    induction items with
    | nil => exact .nil
    | cons v items ih =>
      by_cases worth : ∃ content timestamp, Gives v content timestamp
      · obtain ⟨content, timestamp, gives⟩ := worth
        rw [List.filterMap_cons_some (ownEnvelope?_of_gives gives)]
        exact .give gives ih
      · have worthless : ∀ content timestamp, ¬Gives v content timestamp :=
          fun content timestamp gives => worth ⟨content, timestamp, gives⟩
        rw [List.filterMap_cons_none (ownEnvelope?_eq_none_iff.2 worthless)]
        exact .drop worthless ih

/-- A list without any entry that gives an envelope is worth none. -/
theorem kept_nil_iff {group : String} {items : List Json} :
    Kept group items [] ↔ ∀ v ∈ items, ∀ content timestamp, ¬Gives v content timestamp := by
  rw [kept_iff, eq_comm, List.filterMap_eq_nil_iff]
  exact forall₂_congr fun _ _ => ownEnvelope?_eq_none_iff

/-! ## Responses -/

theorem mapM_of_readable (group : String) {items : List Json}
    (readable : ∀ v ∈ items, Readable v) : ∃ entries,
      items.mapM Entry.ofJson? = some entries ∧
        entries.filterMap (Entry.envelope? group) = items.filterMap (ownEnvelope? group) := by
  induction items with
  | nil => exact ⟨[], rfl, rfl⟩
  | cons v items ih =>
    obtain ⟨e, reads⟩ := readable v List.mem_cons_self
    obtain ⟨entries, others, same⟩ := ih fun w hw => readable w (List.mem_cons_of_mem _ hw)
    have first := Entry.ofJson?_eq_some_iff.2 reads
    refine ⟨e :: entries, by simp [List.mapM_cons, first, others], ?_⟩
    rw [List.filterMap_cons, List.filterMap_cons, same, ownEnvelope?, first, Option.bind_some]

theorem mapM_of_not_readable {items : List Json} (spoilt : ∃ v ∈ items, ¬Readable v) :
    items.mapM Entry.ofJson? = none := by
  induction items with
  | nil =>
    obtain ⟨v, hv, -⟩ := spoilt
    cases hv
  | cons v items ih =>
    rw [List.mapM_cons]
    cases first : Entry.ofJson? v with
    | none => rfl
    | some e =>
      -- The first entry can be read, so it is one of the others that cannot.
      have others : ∃ w ∈ items, ¬Readable w := by
        obtain ⟨w, hw, unread⟩ := spoilt
        rcases List.mem_cons.1 hw with rfl | hw
        · exact absurd ⟨e, Entry.ofJson?_eq_some_iff.1 first⟩ unread
        · exact ⟨w, hw, unread⟩
      simp [ih others]

/-- The entries that a response lists. It is an object, or an array of its only field; where the
field is missing there are none. -/
inductive Lists : Json → List Json → Prop
  | object {members : List (String × Json)} {items : List Json}
      (listed : members.lookup "messages" = some (.arr items)) : Lists (.obj members) items
  | unlisted {members : List (String × Json)} (missing : members.lookup "messages" = none) :
      Lists (.obj members) []
  | positional (items : List Json) : Lists (.arr [.arr items]) items
  | empty : Lists (.arr []) []

theorem entries?_of_lists {response : Json} {items : List Json} (lists : Lists response items) :
    entries? response = items.mapM Entry.ofJson? := by
  cases lists with
  | object listed => simp [entries?, Json.fields?, Json.Fields.withDefault, listed, Json.listOf?,
      Json.items?]
  | unlisted missing => simp [entries?, Json.fields?, Json.Fields.withDefault, missing]
  | positional => rfl
  | empty => rfl

/-- Where all entries can be read, each is made into its own envelope. -/
theorem envelopes_of_lists (group : String) {response : Json} {items : List Json}
    (lists : Lists response items) (readable : ∀ v ∈ items, Readable v) :
    envelopes group response = items.filterMap (ownEnvelope? group) := by
  obtain ⟨entries, read, same⟩ := mapM_of_readable group readable
  rw [envelopes, entries?_of_lists lists, read, Option.getD_some, same]

section
variable {group : String} {members : List (String × Json)} {items : List Json}

/-- If all entries can be read, each costs only itself. -/
theorem kept_of_readable (listed : members.lookup "messages" = some (.arr items))
    (readable : ∀ v ∈ items, Readable v) : Kept group items (envelopes group (.obj members)) := by
  rw [kept_iff, envelopes_of_lists group (.object listed) readable]

/-- An entry that cannot be read costs all of them. -/
theorem envelopes_of_not_readable (listed : members.lookup "messages" = some (.arr items))
    (spoilt : ∃ v ∈ items, ¬Readable v) : envelopes group (.obj members) = [] := by
  rw [envelopes, entries?_of_lists (.object listed), mapM_of_not_readable spoilt]
  rfl

/-- **When a malformed entry costs only itself.** A response gives the envelopes that its list is
worth exactly if all its entries can be read, be their texts base64 or not, or if the list is worth
none. A single entry that cannot be read leaves nothing of a response. -/
theorem costs_only_itself_iff (listed : members.lookup "messages" = some (.arr items)) :
    (Kept group items (envelopes group (.obj members)) ↔
      (∀ v ∈ items, Readable v) ∨ ∀ v ∈ items, ∀ content timestamp, ¬Gives v content timestamp) ∧
    ((∃ v ∈ items, ¬Readable v) → envelopes group (.obj members) = []) := by
  refine ⟨⟨fun kept => ?_, ?_⟩, envelopes_of_not_readable listed⟩
  · by_cases readable : ∀ v ∈ items, Readable v
    · exact .inl readable
    · have spoilt : ∃ v ∈ items, ¬Readable v := by simpa using readable
      rw [envelopes_of_not_readable listed spoilt] at kept
      exact .inr (kept_nil_iff.1 kept)
  · rintro (readable | worthless)
    · exact kept_of_readable listed readable
    · by_cases readable : ∀ v ∈ items, Readable v
      · exact kept_of_readable listed readable
      · have spoilt : ∃ v ∈ items, ¬Readable v := by simpa using readable
        rw [envelopes_of_not_readable listed spoilt]
        exact kept_nil_iff.2 worthless

end

/-! ## Three messages -/

/-- A list of three messages, the second of which has this for its text. -/
def threeEntries (second : Json) : List Json :=
  [.obj [("data", .str "Zmlyc3Q="), ("timestamp", .int 10)],
    .obj [("data", second), ("timestamp", .int 11)],
    .obj [("data", .str "c2Vjb25k")]]

/-- The response that holds this list. -/
def threeMessages (second : Json) : List (String × Json) :=
  [("messages", .arr (threeEntries second))]

/-- The envelopes of the other two. -/
def otherTwo : List Envelope :=
  [.closedGroup "group" "first".toUTF8.toList 10, .closedGroup "group" "second".toUTF8.toList 0]

/-- A text that is not base64 costs only its own message. -/
theorem costs_only_itself_iff_unencoded :
    (threeMessages (.str "%%%")).lookup "messages" = some (.arr (threeEntries (.str "%%%"))) ∧
      Kept "group" (threeEntries (.str "%%%")) otherTwo ∧
      envelopes "group" (.obj (threeMessages (.str "%%%"))) = otherTwo := by
  have listed : (threeMessages (.str "%%%")).lookup "messages" =
      some (.arr (threeEntries (.str "%%%"))) := rfl
  have readable : ∀ v ∈ threeEntries (.str "%%%"), Readable v := by
    have timed : ∀ n : Nat, n < 12 → Times (some (.int n)) n := fun n small =>
      .inr ⟨rfl, Nat.lt_trans small (by decide)⟩
    simp only [threeEntries, List.forall_mem_cons, readable_obj_iff]
    exact ⟨⟨⟨_, rfl⟩, _, timed 10 (by decide)⟩, ⟨⟨_, rfl⟩, _, timed 11 (by decide)⟩,
      ⟨⟨_, rfl⟩, _, .inl ⟨rfl, rfl⟩⟩, by simp⟩
  have kept : Kept "group" (threeEntries (.str "%%%"))
      (envelopes "group" (.obj (threeMessages (.str "%%%")))) :=
    (costs_only_itself_iff listed).1.2 (.inl readable)
  have worth : Kept "group" (threeEntries (.str "%%%")) otherTwo := kept_iff.2 (by decide +kernel)
  exact ⟨listed, worth, by rw [kept_iff.1 kept, kept_iff.1 worth]⟩

/-- **A text that is a number costs all three messages**, though the other two are well-formed. -/
theorem number_spoils_all :
    Kept "group" (threeEntries (.int 5)) otherTwo ∧
      envelopes "group" (.obj (threeMessages (.int 5))) = [] :=
  ⟨kept_iff.2 (by decide +kernel), by decide +kernel⟩

end SealedPost.Retrieval
