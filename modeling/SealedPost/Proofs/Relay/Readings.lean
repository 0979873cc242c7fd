import SealedPost.Proofs.Relay.Exchange

/-!
# Two readings of a reply

A reply can be read as a record, which is strict about its fields, or by taking from an object what
is of the right type. Where the strict reading takes an object, the other one reads the same
(`ofJson_of_records`). They part at arrays, which only the strict reading takes, and at fields of a
wrong type, which only the other one passes over; but whatever the value is, a success needs an
object with the integer zero for its code (`readings_agree`).
-/

namespace SealedPost.Relay.Response

/-! ## The strict reading -/

/-- The value is this code: an integer that 64 bits hold with a sign. -/
def IsCode (v : Json) (n : Int) : Prop := v = .int n ∧ -2 ^ 63 ≤ n ∧ n < 2 ^ 63

/-- The value is this message. -/
def IsMessage (v : Json) (s : String) : Prop := v = .str s

/-- The value is a record with this code and this message, each of which may be null or missing. -/
def Records (v : Json) (r : Response) : Prop :=
  ∃ code message, Json.Pair "code" "message" v code message ∧
    Json.Says IsCode code r.code ∧ Json.Says IsMessage message r.message

theorem isCode_iff (v : Json) (n : Int) : v.int64? = some n ↔ IsCode v n := Json.int64?_eq_some_iff

theorem isMessage_iff (v : Json) (s : String) : v.text? = some s ↔ IsMessage v s :=
  Json.text?_eq_some_iff

/-- **The strict reading takes exactly the records.** -/
theorem ofRecord?_eq_some_iff {v : Json} {r : Response} : ofRecord? v = some r ↔ Records v r := by
  have distinct : "message" ≠ "code" := by decide
  simp only [ofRecord?, Option.bind_eq_bind, Option.bind_eq_some_iff, Records,
    Json.pair_iff distinct, Json.says_iff isCode_iff rfl, Json.says_iff isMessage_iff rfl]
  constructor
  · rintro ⟨f, hf, code, hcode, message, hmessage, made⟩
    obtain rfl := Option.some.inj made
    exact ⟨_, _, ⟨f, hf, rfl, rfl⟩, hcode, hmessage⟩
  · rintro ⟨_, _, ⟨f, hf, rfl, rfl⟩, hcode, hmessage⟩
    exact ⟨f, hf, _, hcode, _, hmessage, rfl⟩

theorem says_zero_iff {field : Option Json} :
    Json.Says IsCode field (some 0) ↔ field = some (.int 0) := by
  constructor
  · intro h
    cases h with
    | value is => rw [is.1]
  · rintro rfl
    exact .value ⟨rfl, by simp⟩

theorem exists_message_iff {field : Option Json} : (∃ message, Json.Says IsMessage field message) ↔
    field = none ∨ field = some .null ∨ ∃ s, field = some (.str s) := by
  constructor
  · rintro ⟨message, h⟩
    cases h with
    | missing => simp
    | null => simp
    | value is =>
      obtain rfl := is
      simp
  · rintro (rfl | rfl | ⟨s, rfl⟩)
    · exact ⟨none, .missing⟩
    · exact ⟨none, .null⟩
    · exact ⟨some s, .value rfl⟩

/-- The arrays that the strict reading takes for a success: a zero, and a message or none. -/
theorem arr_succeeds_iff {items : List Json} :
    (∃ r, ofRecord? (.arr items) = some r ∧ r.isSuccess = true) ↔
      items = [.int 0] ∨ items = [.int 0, .null] ∨ ∃ s, items = [.int 0, .str s] := by
  simp only [ofRecord?_eq_some_iff, Records, isSuccess, decide_eq_true_eq]
  constructor
  · rintro ⟨r, ⟨_, _, fields, hcode, hmessage⟩, success⟩
    rw [success, says_zero_iff] at hcode
    have said := exists_message_iff.1 ⟨_, hmessage⟩
    cases fields with
    | array _ short =>
      rcases items with _ | ⟨code, _ | ⟨message, _ | ⟨third, rest⟩⟩⟩
      · simp at hcode
      · simpa using hcode
      · have zero : code = .int 0 := by simpa using hcode
        simpa [zero] using said
      · simp at short
  · intro forms
    have shape : items.length ≤ 2 ∧ items[0]? = some (.int 0) ∧
        (items[1]? = none ∨ items[1]? = some .null ∨ ∃ s, items[1]? = some (.str s)) := by
      rcases forms with rfl | rfl | ⟨s, rfl⟩ <;> simp
    obtain ⟨short, first, second⟩ := shape
    obtain ⟨message, said⟩ := exists_message_iff.2 second
    exact ⟨⟨some 0, message⟩, ⟨_, _, .array items short, says_zero_iff.2 first, said⟩, rfl⟩

/-! ## The reading that passes over -/

theorem code_ofJson_iff {v : Json} {n : Int} : (ofJson v).code = some n ↔ ∃ members,
    v = .obj members ∧ members.lookup "code" = some (.int n) ∧ -2 ^ 63 ≤ n ∧ n < 2 ^ 63 := by
  simp only [ofJson, Option.bind_eq_some_iff, Json.member?_eq_some_iff, isCode_iff]
  constructor
  · rintro ⟨_, ⟨members, hv, found⟩, rfl, within⟩
    exact ⟨members, hv, found, within⟩
  · rintro ⟨members, hv, found, within⟩
    exact ⟨_, ⟨members, hv, found⟩, rfl, within⟩

theorem message_ofJson_iff {v : Json} {s : String} : (ofJson v).message = some s ↔
    ∃ members, v = .obj members ∧ members.lookup "message" = some (.str s) := by
  simp [ofJson, Option.bind_eq_some_iff, Json.member?_eq_some_iff, Json.text?_eq_some_iff]

/-- **Where the strict reading takes an object, the other one reads the same.** -/
theorem ofJson_of_records {members : List (String × Json)} {r : Response}
    (h : Records (.obj members) r) : ofJson (.obj members) = r := by
  obtain ⟨_, _, fields, hcode, hmessage⟩ := h
  cases fields
  have code := hcode.bind_eq isCode_iff rfl
  have message := hmessage.bind_eq isMessage_iff rfl
  show (⟨(members.lookup "code").bind Json.int64?, (members.lookup "message").bind Json.text?⟩ :
    Response) = r
  rw [code, message]

/-- **The two readings agree on objects, and a success is always an object with a zero.** The second
reading takes every value: it has a code exactly if the value is an object whose code is an integer
of 64 bits, a message exactly if that is a text, and is a success exactly if the code is the
integer zero. So no array is one, though the strict reading takes some for it. -/
theorem readings_agree (v : Json) :
    (∀ r, ofRecord? v = some r ↔ Records v r) ∧
    (∀ members r, v = .obj members → ofRecord? v = some r → ofJson v = r) ∧
    (∀ n, (ofJson v).code = some n ↔ ∃ members, v = .obj members ∧
      members.lookup "code" = some (.int n) ∧ -2 ^ 63 ≤ n ∧ n < 2 ^ 63) ∧
    (∀ s, (ofJson v).message = some s ↔ ∃ members, v = .obj members ∧
      members.lookup "message" = some (.str s)) ∧
    ((ofJson v).isSuccess = true ↔ ∃ members, v = .obj members ∧
      members.lookup "code" = some (.int 0)) ∧
    (∀ items, v = .arr items → (ofJson v).isSuccess = false ∧
      ((∃ r, ofRecord? v = some r ∧ r.isSuccess = true) ↔
        items = [.int 0] ∨ items = [.int 0, .null] ∨ ∃ s, items = [.int 0, .str s])) := by
  refine ⟨fun r => ofRecord?_eq_some_iff, ?agree, fun n => code_ofJson_iff,
    fun s => message_ofJson_iff, isSuccess_ofJson_iff, ?array⟩
  case agree =>
    rintro members r rfl read
    exact ofJson_of_records (ofRecord?_eq_some_iff.1 read)
  case array =>
    rintro items rfl
    exact ⟨rfl, arr_succeeds_iff⟩

end SealedPost.Relay.Response
