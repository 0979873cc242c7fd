import Mathlib
import SealedPost.Config.Sources
import SealedPost.Proofs.Config.Validity
import SealedPost.Proofs.Text.Decimal
import SealedPost.Proofs.Text.Utf8

/-!
# Which settings are in effect

What a source says is a layer: a value for each setting that it mentions. A file, the variables and
the flag are laid over the defaults in this order, and what comes out is judged once, at the end
(`ClientConfig.effective_settings`).

* `Layer.ofJson?_eq`: a document is read as its layer over the defaults.
* `Layer.applyVariables_eq`: so are the variables, once their numbers can be read.
* `load_eq`: nothing is judged before all of it is merged.
-/

namespace SealedPost
open Text

/-! ## Layers -/

namespace Json.Fields
variable {α : Type}

/-- The value of a field, if there is one. -/
def optional (f : Fields) (name : String) (read : Json → Option α) : Option (Option α) :=
  match f.get? name with
  | some v => (read v).map some
  | none => some none

theorem withDefault_eq (f : Fields) (name : String) (default : α) (read : Json → Option α) :
    f.withDefault name default read =
      (f.optional name read).map fun value => value.getD default := by
  unfold withDefault optional
  cases f.get? name with
  | none => rfl
  | some v => cases h : read v <;> simp [h]

theorem optional_map {β : Type} (f : Fields) (name : String) (read : Json → Option α) (g : α → β) :
    (f.optional name fun v => (read v).map g) =
      (f.optional name read).map fun value => value.map g := by
  unfold optional
  cases f.get? name with
  | none => rfl
  | some v => cases h : read v <;> simp [h]

end Json.Fields

namespace ClientConfig

/-- The settings that a source mentions. -/
structure Layer where
  pollIntervalMs : Option UInt64
  serverUrl : Option String
  serverPublicKey : Option String
  maxRetryCount : Option UInt32
  tokenExpirationSecs : Option UInt64
  logLevel : Option String

namespace Layer

/-- A source that says nothing. -/
def silent : Layer := ⟨none, none, none, none, none, none⟩

/-- Two layers, the upper one counting where both say something. -/
def above (upper lower : Layer) : Layer where
  pollIntervalMs := upper.pollIntervalMs.or lower.pollIntervalMs
  serverUrl := upper.serverUrl.or lower.serverUrl
  serverPublicKey := upper.serverPublicKey.or lower.serverPublicKey
  maxRetryCount := upper.maxRetryCount.or lower.maxRetryCount
  tokenExpirationSecs := upper.tokenExpirationSecs.or lower.tokenExpirationSecs
  logLevel := upper.logLevel.or lower.logLevel

/-- A layer over settings. -/
def overlay (l : Layer) (c : ClientConfig) : ClientConfig where
  pollIntervalMs := l.pollIntervalMs.getD c.pollIntervalMs
  push :=
    { serverUrl := l.serverUrl.getD c.push.serverUrl
      serverPublicKey := l.serverPublicKey.getD c.push.serverPublicKey
      maxRetryCount := l.maxRetryCount.getD c.push.maxRetryCount
      tokenExpirationSecs := l.tokenExpirationSecs.getD c.push.tokenExpirationSecs }
  logLevel := l.logLevel.getD c.logLevel

theorem overlay_above (upper lower : Layer) (c : ClientConfig) :
    (upper.above lower).overlay c = upper.overlay (lower.overlay c) := by
  simp only [overlay, above, Option.getD_or]

/-! ## Documents -/

/-- What a document says of the relay. -/
def ofPush? (v : Json) : Option Layer := do
  let f ←
    v.fields? false ["server_url", "server_public_key", "max_retry_count", "token_expiration_secs"]
  let serverUrl ← f.optional "server_url" Json.text?
  let serverPublicKey ← f.optional "server_public_key" Json.text?
  let maxRetryCount ← f.optional "max_retry_count" (Json.natBelow? UInt32.size)
  let tokenExpirationSecs ← f.optional "token_expiration_secs" (Json.natBelow? UInt64.size)
  return { silent with
    serverUrl
    serverPublicKey
    maxRetryCount := maxRetryCount.map UInt32.ofNat
    tokenExpirationSecs := tokenExpirationSecs.map UInt64.ofNat }

/-- What a document says; `none` if it is no document with settings. -/
def ofDocument? (v : Json) : Option Layer := do
  let f ← v.fields? false ["poll_interval_ms", "push", "log_level"]
  let pollIntervalMs ← f.optional "poll_interval_ms" (Json.natBelow? UInt64.size)
  let push ← f.optional "push" ofPush?
  let logLevel ← f.optional "log_level" Json.text?
  return { push.getD silent with pollIntervalMs := pollIntervalMs.map UInt64.ofNat, logLevel }

/-- A number that is not given stays as it was. -/
theorem ofNat_getD_toNat {α : Type} {ofNat : Nat → α} {toNat : α → Nat}
    (ofNat_toNat : ∀ a, ofNat (toNat a) = a) (value : Option Nat) (default : α) :
    ofNat (value.getD (toNat default)) = (value.map ofNat).getD default := by
  cases value with
  | none => exact ofNat_toNat default
  | some n => rfl

theorem push_ofJson?_eq (v : Json) : PushConfig.ofJson? false v =
    (ofPush? v).map fun l => (l.overlay .default).push := by
  simp only [PushConfig.ofJson?, ofPush?, Json.Fields.withDefault_eq, Option.bind_eq_bind,
    Option.map_bind, Option.bind_map, Function.comp_def,
    ofNat_getD_toNat fun _ => UInt32.ofNat_toNat, ofNat_getD_toNat fun _ => UInt64.ofNat_toNat]
  rfl

/-- **A document is read as what it says, over the defaults.** -/
theorem ofJson?_eq (v : Json) :
    ofJson? false v = (ofDocument? v).map fun l => l.overlay .default := by
  have relay (push : Option Layer) : (push.map fun l => (l.overlay .default).push).getD .default =
      ((push.getD silent).overlay .default).push := by
    cases push <;> rfl
  simp only [ofJson?, ofDocument?, Json.Fields.withDefault_eq, funext push_ofJson?_eq,
    Json.Fields.optional_map, Option.bind_eq_bind, Option.map_bind, Option.bind_map,
    Function.comp_def, ofNat_getD_toNat fun _ => UInt64.ofNat_toNat, relay]
  rfl

/-! ## Variables -/

/-- What the variables say: their texts, and the numbers that two of them spell. None is for how
long a token lasts. -/
structure FromVariables (vars : Variables) (l : Layer) : Prop where
  pollInterval : Option.Rel (fun text n => Decimal.Spells text n.toNat)
    (vars "VEIL_POLL_INTERVAL_MS") l.pollIntervalMs
  serverUrl : l.serverUrl = vars "VEIL_PUSH_SERVER_URL"
  serverPublicKey : l.serverPublicKey = vars "VEIL_PUSH_SERVER_PUBLIC_KEY"
  maxRetryCount : Option.Rel (fun text n => Decimal.Spells text n.toNat)
    (vars "VEIL_PUSH_MAX_RETRY_COUNT") l.maxRetryCount
  tokenExpirationSecs : l.tokenExpirationSecs = none
  logLevel : l.logLevel = vars "RUST_LOG"

/-- A number is overlaid exactly if the text, where there is one, spells a number of its type. -/
theorem overlayNumber_eq_ok_iff {α : Type} {ofNat : Nat → α} {toNat : α → Nat} {bound : Nat}
    (positive : 0 < bound) (small : ∀ a, toNat a < bound) (ofNat_toNat : ∀ a, ofNat (toNat a) = a)
    (toNat_ofNat : ∀ n < bound, toNat (ofNat n) = n) (put : α → ClientConfig) {name : String}
    {text : Option String} {c c' : ClientConfig} :
    overlayNumber bound name text (fun n => put (ofNat n)) c = .ok c' ↔ ∃ a : Option α,
      Option.Rel (fun text a => Decimal.Spells text (toNat a)) text a ∧
        c' = (a.map put).getD c := by
  constructor
  · intro h
    cases text with
    | none => exact ⟨none, .none, (Except.ok.inj h).symm⟩
    | some text =>
      simp only [overlayNumber] at h
      split at h
      · rename_i n read
        obtain ⟨spells, below⟩ := (Decimal.read_eq_ok_iff positive).1 read
        refine ⟨some (ofNat n), .some ?_, (Except.ok.inj h).symm⟩
        rwa [toNat_ofNat n below]
      · cases h
  · rintro ⟨a, h, rfl⟩
    cases h with
    | none => rfl
    | @some text a spells =>
      have read := (Decimal.read_eq_ok_iff positive).2 ⟨spells, small a⟩
      simp only [overlayNumber, read, ofNat_toNat, Option.map_some, Option.getD_some]

theorem applyPollInterval_eq_ok_iff {vars : Variables} {c c' : ClientConfig} :
    applyPollInterval vars c = .ok c' ↔ ∃ n : Option UInt64,
      Option.Rel (fun text n => Decimal.Spells text n.toNat) (vars "VEIL_POLL_INTERVAL_MS") n ∧
        c' = (n.map fun n => { c with pollIntervalMs := n }).getD c := by
  have small (n : UInt64) : n.toNat < UInt64.size := n.toNat_lt
  exact overlayNumber_eq_ok_iff (by decide) small (fun _ => UInt64.ofNat_toNat)
    (fun _ => UInt64.toNat_ofNat_of_lt') fun n => { c with pollIntervalMs := n }

theorem applyRetryCount_eq_ok_iff {vars : Variables} {c c' : ClientConfig} :
    applyRetryCount vars c = .ok c' ↔ ∃ n : Option UInt32,
      Option.Rel (fun text n => Decimal.Spells text n.toNat) (vars "VEIL_PUSH_MAX_RETRY_COUNT") n ∧
        c' = (n.map fun n => { c with push := { c.push with maxRetryCount := n } }).getD c := by
  have small (n : UInt32) : n.toNat < UInt32.size := n.toNat_lt
  exact overlayNumber_eq_ok_iff (by decide) small (fun _ => UInt32.ofNat_toNat)
    (fun _ => UInt32.toNat_ofNat_of_lt')
    fun n => { c with push := { c.push with maxRetryCount := n } }

/-- **Variables are overlaid as what they say**, where their numbers can be read. -/
theorem applyVariables_eq {vars : Variables} {l : Layer} (c : ClientConfig)
    (h : FromVariables vars l) : applyVariables vars c = (l.overlay c, none) := by
  have polled : applyPollInterval vars c = .ok _ :=
    applyPollInterval_eq_ok_iff.2 ⟨_, h.pollInterval, rfl⟩
  have counted (c : ClientConfig) : applyRetryCount vars c = .ok _ :=
    applyRetryCount_eq_ok_iff.2 ⟨_, h.maxRetryCount, rfl⟩
  obtain ⟨pollIntervalMs, serverUrl, serverPublicKey, maxRetryCount, tokenExpirationSecs,
    logLevel⟩ := l
  simp only [applyVariables, polled, counted, Prod.mk.injEq, and_true]
  obtain ⟨-, rfl, rfl, -, rfl, rfl⟩ := h
  cases pollIntervalMs <;> cases maxRetryCount <;> rfl

theorem exists_fromVariables {vars : Variables} {c c' : ClientConfig}
    (h : applyVariables vars c = (c', none)) : ∃ l, FromVariables vars l := by
  unfold applyVariables at h
  split at h
  · cases h
  rename_i polled
  obtain ⟨pollInterval, hpoll, -⟩ := applyPollInterval_eq_ok_iff.1 polled
  simp only at h
  split at h
  · cases h
  rename_i counted
  obtain ⟨retryCount, hretry, -⟩ := applyRetryCount_eq_ok_iff.1 counted
  exact ⟨⟨pollInterval, _, _, retryCount, none, _⟩, hpoll, rfl, rfl, hretry, rfl, rfl⟩

/-! ## Files and the flag -/

/-- What a file says, if one is named: it holds the bytes of a text, which is a document with
settings. -/
def FromFile (file : Option (Option Bytes)) (l : Layer) : Prop :=
  match file with
  | none => l = silent
  | some content => ∃ text document, content = some (utf8 text) ∧
      Toml.document? text = some document ∧ ofDocument? document = some l

theorem ofFile_eq_ok_iff {content : Option Bytes} {c : ClientConfig} :
    ofFile content = .ok c ↔ ∃ l, FromFile (some content) l ∧ c = l.overlay .default := by
  unfold ofFile FromFile
  constructor
  · intro h
    split at h
    · cases h
    rename_i cs read
    split at h
    · rename_i parsed
      obtain rfl := Except.ok.inj h
      obtain ⟨document, hdocument, hlayer⟩ := Option.bind_eq_some_iff.1 parsed
      rw [ofJson?_eq] at hlayer
      obtain ⟨l, hl, rfl⟩ := Option.map_eq_some_iff.1 hlayer
      exact ⟨l, ⟨_, document, bind_readUtf8?_eq_some_iff.1 read, hdocument, hl⟩, rfl⟩
    · cases h
  · rintro ⟨l, ⟨text, document, rfl, hdocument, hl⟩, rfl⟩
    have read : (some (utf8 text)).bind readUtf8? = some text.toList := by
      rw [bind_readUtf8?_eq_some_iff, String.ofList_toList]
    have parsed : ofToml? text = some (l.overlay .default) := by
      rw [ofToml?, hdocument, Option.bind_some, ofJson?_eq, hl, Option.map_some]
    simp only [read, String.ofList_toList, parsed]

/-- What the flag says. -/
def ofFlag (logLevel : Option String) : Layer := { silent with logLevel }

theorem applyFlag_eq (logLevel : Option String) (c : ClientConfig) :
    applyFlag logLevel c = (ofFlag logLevel).overlay c := rfl

end Layer

/-! ## All sources -/

/-- The settings of all sources together: the flag over the variables over the file over the
defaults. -/
def merged (logLevel : Option String) (varLayer fileLayer : Layer) : ClientConfig :=
  ((Layer.ofFlag logLevel).above (varLayer.above fileLayer)).overlay .default

/-- What the variables are laid over. -/
def base (file : Option (Option Bytes)) : Except ConfigError ClientConfig :=
  match file with
  | some content => ofFile content
  | none => .ok .default

/-- What becomes of it. -/
def settle (vars : Variables) (logLevel : Option String) (c : ClientConfig) :
    Except ConfigError ClientConfig :=
  match applyVariables vars c with
  | (_, some e) => .error e
  | (c, none) => (validate (applyFlag logLevel c)).map fun _ => applyFlag logLevel c

theorem load_eq_bind (file : Option (Option Bytes)) (vars : Variables) (logLevel : Option String) :
    load file vars logLevel = (base file).bind (settle vars logLevel) := by
  have checked (c : ClientConfig) : (do validate c; return c : Except ConfigError ClientConfig) =
      (validate c).map fun _ => c := by
    cases validate c <;> rfl
  unfold load base settle
  simp only [checked]
  cases file <;> rfl

theorem base_eq_ok_iff {file : Option (Option Bytes)} {c : ClientConfig} :
    base file = .ok c ↔ ∃ l, Layer.FromFile file l ∧ c = l.overlay .default := by
  cases file with
  | none =>
    constructor
    · intro h
      exact ⟨.silent, rfl, (Except.ok.inj h).symm⟩
    · rintro ⟨l, hl, rfl⟩
      obtain rfl : l = .silent := hl
      rfl
  | some content => exact Layer.ofFile_eq_ok_iff

theorem settle_eq {vars : Variables} {varLayer : Layer} (logLevel : Option String)
    (c : ClientConfig) (h : Layer.FromVariables vars varLayer) :
    settle vars logLevel c = (validate (applyFlag logLevel (varLayer.overlay c))).map
      fun _ => applyFlag logLevel (varLayer.overlay c) := by
  simp only [settle, Layer.applyVariables_eq c h]

theorem exists_of_settle {vars : Variables} {logLevel : Option String} {c c' : ClientConfig}
    (h : settle vars logLevel c = .ok c') : ∃ varLayer, Layer.FromVariables vars varLayer := by
  unfold settle at h
  split at h
  · cases h
  · rename_i overlaid
    exact Layer.exists_fromVariables overlaid

/-- **Only what comes out in the end is judged.** -/
theorem load_eq {file : Option (Option Bytes)} {vars : Variables} {fileLayer varLayer : Layer}
    (logLevel : Option String) (hfile : Layer.FromFile file fileLayer)
    (hvars : Layer.FromVariables vars varLayer) :
    load file vars logLevel =
      (validate (merged logLevel varLayer fileLayer)).map
        fun _ => merged logLevel varLayer fileLayer := by
  have settled : applyFlag logLevel (varLayer.overlay (fileLayer.overlay .default)) =
      merged logLevel varLayer fileLayer := by
    rw [Layer.applyFlag_eq, merged, Layer.overlay_above, Layer.overlay_above]
  rw [load_eq_bind, base_eq_ok_iff.2 ⟨fileLayer, hfile, rfl⟩, Except.bind, settle_eq _ _ hvars,
    settled]

/-- Settings come only out of a file and variables that can be read. -/
theorem exists_layers {file : Option (Option Bytes)} {vars : Variables} {logLevel : Option String}
    {c : ClientConfig} (h : load file vars logLevel = .ok c) :
    ∃ fileLayer varLayer, Layer.FromFile file fileLayer ∧ Layer.FromVariables vars varLayer := by
  rw [load_eq_bind] at h
  cases hbase : base file with
  | error e => simp [hbase, Except.bind] at h
  | ok start =>
    obtain ⟨fileLayer, hfile, -⟩ := base_eq_ok_iff.1 hbase
    rw [hbase] at h
    obtain ⟨varLayer, hvars⟩ := exists_of_settle h
    exact ⟨fileLayer, varLayer, hfile, hvars⟩

/-- Settings that come out have passed. -/
theorem valid_of_load {file : Option (Option Bytes)} {vars : Variables} {logLevel : Option String}
    {c : ClientConfig} (h : load file vars logLevel = .ok c) : Valid c := by
  obtain ⟨fileLayer, varLayer, hfile, hvars⟩ := exists_layers h
  rw [load_eq logLevel hfile hvars] at h
  cases judged : validate (merged logLevel varLayer fileLayer) with
  | error e => simp [judged, Except.map] at h
  | ok _ =>
    rw [judged] at h
    obtain rfl := Except.ok.inj h
    exact validate_eq_ok_iff.1 judged

/-- **The settings in effect.** There are settings exactly if the file, where one is named, and the
variables can be read and what they give together passes; each setting is then the value of the
highest source that gives it, the flag over the variables over the file over the defaults. What
passes is valid. Nothing is judged before: whatever the sources say each, what they give together
is accepted where it is valid and refused where it is not. -/
theorem effective_settings (file : Option (Option Bytes)) (vars : Variables)
    (logLevel : Option String) :
    (∀ c, load file vars logLevel = .ok c ↔ ∃ fileLayer varLayer,
      Layer.FromFile file fileLayer ∧ Layer.FromVariables vars varLayer ∧
        c = merged logLevel varLayer fileLayer ∧ validate c = .ok ()) ∧
    (∀ c, load file vars logLevel = .ok c → Valid c) ∧
    (∀ fileLayer varLayer, Layer.FromFile file fileLayer → Layer.FromVariables vars varLayer →
      (Valid (merged logLevel varLayer fileLayer) →
        load file vars logLevel = .ok (merged logLevel varLayer fileLayer)) ∧
      (¬ Valid (merged logLevel varLayer fileLayer) →
        ∃ reason, load file vars logLevel = .error (.invalid reason))) := by
  have passes (c : ClientConfig) : load file vars logLevel = .ok c ↔ ∃ fileLayer varLayer,
      Layer.FromFile file fileLayer ∧ Layer.FromVariables vars varLayer ∧
        c = merged logLevel varLayer fileLayer ∧ validate c = .ok () := by
    constructor
    · intro h
      obtain ⟨fileLayer, varLayer, hfile, hvars⟩ := exists_layers h
      rw [load_eq logLevel hfile hvars] at h
      cases judged : validate (merged logLevel varLayer fileLayer) with
      | error e => simp [judged, Except.map] at h
      | ok _ =>
        rw [judged] at h
        obtain rfl := Except.ok.inj h
        exact ⟨fileLayer, varLayer, hfile, hvars, rfl, judged⟩
    · rintro ⟨fileLayer, varLayer, hfile, hvars, rfl, judged⟩
      rw [load_eq logLevel hfile hvars, judged]
      rfl
  refine ⟨passes, ?valid, ?judged⟩
  case valid =>
    intro c h
    obtain ⟨_, _, -, -, -, judged⟩ := (passes c).1 h
    exact validate_eq_ok_iff.1 judged
  case judged =>
    intro fileLayer varLayer hfile hvars
    rw [load_eq logLevel hfile hvars]
    constructor
    · intro valid
      rw [validate_eq_ok_iff.2 valid]
      rfl
    · intro invalid
      rcases validate_eq_ok_or_invalid (merged logLevel varLayer fileLayer) with h | ⟨reason, h⟩
      · exact absurd (validate_eq_ok_iff.1 h) invalid
      · rw [h]
        exact ⟨reason, rfl⟩

/-- Variables that set the interval and the log level. -/
def intervalVariables (interval : String) : Variables
  | "VEIL_POLL_INTERVAL_MS" => some interval
  | "RUST_LOG" => some "warn"
  | _ => none

theorem effective_settings_overridden :
    (load (some (some (utf8 "poll_interval_ms = 0\n[push]\nmax_retry_count = 7")))
        (intervalVariables "+0250") (some "debug") =
      .ok ⟨250, ⟨"http://127.0.0.1:8080", "", 7, 43200⟩, "debug"⟩) ∧
    ∃ reason, load (some (some (utf8 "poll_interval_ms = 1000"))) (intervalVariables "0") none =
      .error (.invalid reason) := by
  have reads (interval : String) (n : UInt64) (h : Decimal.Spells interval n.toNat) :
      Layer.FromVariables (intervalVariables interval)
        { Layer.silent with pollIntervalMs := some n, logLevel := some "warn" } :=
    ⟨.some h, rfl, rfl, .none, rfl, rfl⟩
  have first : Layer.FromFile
      (some (some (utf8 "poll_interval_ms = 0\n[push]\nmax_retry_count = 7")))
      { Layer.silent with pollIntervalMs := some 0, maxRetryCount := some 7 } := by
    refine ⟨_, .obj [("poll_interval_ms", .int 0), ("push", .obj [("max_retry_count", .int 7)])],
      rfl, ?_, ?_⟩
    · cbv
    · cbv
  have second : Layer.FromFile (some (some (utf8 "poll_interval_ms = 1000")))
      { Layer.silent with pollIntervalMs := some 1000 } := by
    refine ⟨_, .obj [("poll_interval_ms", .int 1000)], rfl, ?_, ?_⟩
    · cbv
    · cbv
  constructor
  · have spelled : Decimal.Spells "+0250" (250 : UInt64).toNat :=
      ⟨['0', '2', '5', '0'], .inr (by decide +kernel), by simp, List.all_eq_true.1 (by decide), rfl⟩
    have accepted := (effective_settings _ _ (some "debug")).2.2 _ _ first
      (reads "+0250" 250 spelled)
    have settled : merged (some "debug")
        { Layer.silent with pollIntervalMs := some 250, logLevel := some "warn" }
        { Layer.silent with pollIntervalMs := some 0, maxRetryCount := some 7 } =
          ⟨250, ⟨"http://127.0.0.1:8080", "", 7, 43200⟩, "debug"⟩ := rfl
    have valid : Valid ⟨250, ⟨"http://127.0.0.1:8080", "", 7, 43200⟩, "debug"⟩ :=
      ⟨by decide, by decide, .inl (by decide +kernel), .inl rfl⟩
    rw [settled] at accepted
    exact accepted.1 valid
  · have spelled : Decimal.Spells "0" (0 : UInt64).toNat :=
      ⟨['0'], .inl (by decide +kernel), by simp, List.all_eq_true.1 (by decide), rfl⟩
    have refused := (effective_settings _ _ none).2.2 _ _ second (reads "0" 0 spelled)
    apply refused.2
    intro valid
    exact absurd valid.pollInterval (by decide)

end ClientConfig
end SealedPost
