import Mathlib
import Bearer.Config
import Bearer.Issuer.Draft
import Bearer.Proofs.Json.Loading

/-!
What is written down about a broker and an issuer comes back as it was. The reader of each document
is put together from readers of its parts, and so is the proof; an identifier is read exactly from
the texts that it can be made of.
-/
namespace Bearer

open Json (RoundTrips)

namespace Time.Interval

theorem ofParts?_parts (i : Interval) : ofParts? i.seconds i.subsecond = some i := by
  have whole : i.seconds * nanosPerSecond + i.subsecond = i.nanos := by
    rw [seconds, subsecond, Nat.mul_comm, Nat.div_add_mod]
  rw [ofParts?, whole, ofNanos?, dif_pos i.lt_bound]

theorem seconds_lt (i : Interval) : i.seconds < 1 <<< 64 :=
  Nat.div_lt_of_lt_mul (by simpa only [bound, Nat.mul_comm] using i.lt_bound)

theorem subsecond_lt (i : Interval) : i.subsecond < 1 <<< 32 := by
  have part : i.subsecond < nanosPerSecond := Nat.mod_lt _ (by simp [nanosPerSecond])
  have more : nanosPerSecond < 1 <<< 32 := by simp [nanosPerSecond]
  exact lt_trans part more

theorem gives (i : Interval) : i.toJson.Gives reader i := by
  have entries : List.Forall₂ record.Stands
      [("secs", .int i.seconds), ("nanos", .int i.subsecond)]
      [("secs", i.seconds), ("nanos", i.subsecond)] :=
    .cons ⟨rfl, _, rfl, Json.gives_nat i.seconds_lt (by decide)⟩ <|
      .cons ⟨rfl, _, rfl, Json.gives_nat i.subsecond_lt (by decide)⟩ .nil
  have built := Json.Record.lookup_both "secs" "nanos" (by decide) ofParts? i.seconds i.subsecond
  exact Json.Record.gives_readAs entries (by simp) (built.trans i.ofParts?_parts)

end Time.Interval

theorem PollJitter.gives (jitter : PollJitter) : jitter.toJson.Gives reader jitter := by
  have entries : List.Forall₂ record.Stands
      [("min", .int jitter.min.toNat), ("max", .int jitter.max.toNat)]
      [("min", jitter.min.toNat), ("max", jitter.max.toNat)] :=
    .cons ⟨rfl, _, rfl, Json.gives_nat jitter.min.toNat_lt (by decide)⟩ <|
      .cons ⟨rfl, _, rfl, Json.gives_nat jitter.max.toNat_lt (by decide)⟩ .nil
  have built := Json.Record.lookup_both "min" "max" (by decide)
    (fun min max => some (⟨min.toUInt32, max.toUInt32⟩ : PollJitter)) jitter.min.toNat
    jitter.max.toNat
  refine Json.Record.gives_readAs entries (by simp) (built.trans ?_)
  have least : jitter.min.toNat.toUInt32 = jitter.min := UInt32.ofNat_toNat
  have most : jitter.max.toNat.toUInt32 = jitter.max := UInt32.ofNat_toNat
  rw [least, most]

theorem Config.gives (config : Config) : config.toJson.Gives reader config := by
  have entries : List.Forall₂ record.Stands
      [("debounce_window", config.debounceWindow.toJson),
        ("fallback_interval", config.fallbackInterval.toJson),
        ("poll_interval", config.pollInterval.toJson),
        ("poll_jitter", config.pollJitter.toJson)]
      [("debounce_window", .debounceWindow config.debounceWindow),
        ("fallback_interval", .fallbackInterval config.fallbackInterval),
        ("poll_interval", .pollInterval config.pollInterval),
        ("poll_jitter", .pollJitter config.pollJitter)] :=
    .cons ⟨rfl, _, rfl, config.debounceWindow.gives.map Entry.debounceWindow⟩ <|
      .cons ⟨rfl, _, rfl, config.fallbackInterval.gives.map Entry.fallbackInterval⟩ <|
      .cons ⟨rfl, _, rfl, config.pollInterval.gives.map Entry.pollInterval⟩ <|
      .cons ⟨rfl, _, rfl, config.pollJitter.gives.map Entry.pollJitter⟩ .nil
  exact Json.Record.gives_readAs entries (by simp) rfl

namespace Identifier

variable {kind : Kind}

theorem ofText_eq_ok {text : String} {id : Identifier kind} :
    ofText kind text = .ok id ↔ id.text = text := by
  constructor
  · intro made
    unfold ofText at made
    split at made
    · cases made; rfl
    · cases made
  · rintro rfl
    unfold ofText
    split
    · rfl
    · next found => exact absurd (id.accepted.symm.trans found) nofun

theorem gives (id : Identifier kind) : id.toJson.Gives (reader kind) id :=
  (Json.gives_text id.text).filterMap (Json.toOption_eq_some.mpr (ofText_eq_ok.mpr rfl))

end Identifier

namespace Issuer

/-- A number that the issuer can send as a code. -/
def IsCode (code : Int) : Prop :=
  -0x8000000000000000 ≤ code ∧ code ≤ 0x7FFFFFFFFFFFFFFF

/-- Codes of 64 bits, the expiry codes in ascending order and each one once. -/
structure Codes.Proper (codes : Codes) : Prop where
  ok : IsCode codes.ok
  expired : ∀ code ∈ codes.expired, IsCode code
  ascending : codes.expired.Pairwise (· < ·)

namespace Codes

theorem mem_insert {code other : Int} {codes : List Int} :
    other ∈ insert code codes ↔ other = code ∨ other ∈ codes := by
  induction codes with
  | nil => simp [insert]
  | cons first rest ih =>
      simp only [insert]
      split_ifs with less same
      · simp
      · simp [same]
      · simp only [List.mem_cons, ih]
        tauto

theorem pairwise_insert {codes : List Int} (ascending : codes.Pairwise (· < ·)) (code : Int) :
    (insert code codes).Pairwise (· < ·) := by
  induction codes with
  | nil => exact List.pairwise_singleton _ _
  | cons first rest ih =>
      obtain ⟨below, later⟩ := List.pairwise_cons.mp ascending
      simp only [insert]
      split_ifs with less same
      · refine List.pairwise_cons.mpr ⟨?_, ascending⟩
        intro other member
        rcases List.mem_cons.mp member with rfl | member
        · exact less
        · exact less.trans (below other member)
      · exact ascending
      · refine List.pairwise_cons.mpr ⟨?_, ih later⟩
        intro other member
        rcases mem_insert.mp member with rfl | member
        · omega
        · exact below other member

/-- A code above all others goes to the end. -/
theorem insert_above {codes : List Int} {code : Int} (above : ∀ other ∈ codes, other < code) :
    insert code codes = codes ++ [code] := by
  induction codes with
  | nil => rfl
  | cons first rest ih =>
      obtain ⟨here, later⟩ := List.forall_mem_cons.mp above
      have greater : ¬code < first := by omega
      have other : code ≠ first := by omega
      simp only [insert, greater, other, if_false, ih later, List.cons_append]

/-- Ascending codes are collected behind those that are there, by induction on what is left. -/
theorem foldl_insert {before codes : List Int} (ascending : (before ++ codes).Pairwise (· < ·)) :
    codes.foldl (fun expired code => insert code expired) before = before ++ codes := by
  induction codes generalizing before with
  | nil => simp
  | cons code rest ih =>
      have above : ∀ other ∈ before, other < code := fun other member =>
        (List.pairwise_append.mp ascending).2.2 other member code List.mem_cons_self
      rw [List.append_cons] at ascending
      rw [List.foldl_cons, insert_above above, ih ascending, ← List.append_cons]

theorem ofCodes_ascending {codes : List Int} (ascending : codes.Pairwise (· < ·)) :
    ofCodes codes = codes :=
  foldl_insert ascending

theorem gives {codes : Codes} (proper : codes.Proper) : codes.toJson.Gives reader codes := by
  have code : ∀ code, IsCode code → (Json.Value.int code).Gives Json.Reader.int64 code := by
    intro code bounds
    exact Json.gives_int bounds.1 bounds.2 (by decide) (by decide)
  have list : (Json.Value.array (codes.expired.map .int)).Gives
      (Json.Reader.list Json.Reader.int64) codes.expired :=
    Json.gives_list fun other member => code other (proper.expired other member)
  have entries : List.Forall₂ record.Stands
      [("ok", .int codes.ok), ("expired", .array (codes.expired.map .int))]
      [("ok", .ok codes.ok), ("expired", .expired codes.expired)] :=
    .cons ⟨rfl, _, rfl, (code codes.ok proper.ok).map Entry.ok⟩ <|
      .cons ⟨rfl, _, rfl, list.map Entry.expired⟩ .nil
  refine Json.Record.gives_readAs entries (by simp) ?_
  simp only [ofEntries, List.foldl_cons, List.foldl_nil, ofCodes_ascending proper.ascending]

theorem proper_default : default.Proper where
  ok := by simp [IsCode, default]
  expired := by simp [IsCode, default]
  ascending := by simp [default]

end Codes

/-- A setting that sets no improper code. -/
def Setting.Proper : Setting → Prop
  | .okCode code | .expiryCode code => IsCode code
  | .codes chosen => chosen.Proper
  | .tokenEndpoint _ | .apiBase _ | .appIdParam _ | .appSecretParam _ => True

namespace Draft

theorem proper_set {draft : Draft} (before : draft.codes.Proper) {setting : Setting}
    (proper : setting.Proper) : (draft.set setting).codes.Proper := by
  cases setting with
  | okCode code => exact { before with ok := proper }
  | expiryCode code =>
      refine ⟨before.ok, ?_, Codes.pairwise_insert before.ascending code⟩
      intro other member
      rcases Codes.mem_insert.mp member with rfl | member
      · exact proper
      · exact before.expired other member
  | codes codes => exact proper
  | tokenEndpoint _ | apiBase _ | appIdParam _ | appSecretParam _ => exact before

/-- The codes of a draft stay proper, setting after setting. -/
theorem proper_setAll {draft : Draft} (before : draft.codes.Proper) {settings : List Setting}
    (proper : ∀ setting ∈ settings, setting.Proper) : (draft.setAll settings).codes.Proper := by
  induction settings generalizing draft with
  | nil => exact before
  | cons setting rest ih =>
      obtain ⟨here, later⟩ := List.forall_mem_cons.mp proper
      exact ih (proper_set before here) later

theorem codes_of_build {draft : Draft} {d : Descriptor} (built : draft.build = .ok d) :
    d.codes = draft.codes := by
  unfold build at built
  split at built
  · cases built
  · simp only at built
    split at built
    · cases built; rfl
    · cases built

end Draft

namespace Descriptor

theorem gives_url [Url.Idna] {url : Url} (rereads : Url.parse url.text = .ok url) :
    (Json.Value.string url.text).Gives urlReader url :=
  (Json.gives_text url.text).filterMap (Json.toOption_eq_some.mpr rereads)

theorem gives_params (params : Params) :
    (Json.Value.object [("app_id", .string params.appId), ("app_secret", .string params.appSecret)])
      |>.Gives paramsReader params := by
  have entries : List.Forall₂ paramsRecord.Stands
      [("app_id", .string params.appId), ("app_secret", .string params.appSecret)]
      [("app_id", params.appId), ("app_secret", params.appSecret)] :=
    .cons ⟨rfl, _, rfl, Json.gives_text params.appId⟩ <|
      .cons ⟨rfl, _, rfl, Json.gives_text params.appSecret⟩ .nil
  exact Json.Record.gives_readAs entries (by simp)
    (Json.Record.lookup_both "app_id" "app_secret" (by decide)
      (fun app secret => some (⟨app, secret⟩ : Params)) params.appId params.appSecret)

theorem gives [Url.Idna] {d : Descriptor} (token : Url.parse d.tokenEndpoint.text = .ok d.tokenEndpoint)
    (base : Url.parse d.apiBase.text = .ok d.apiBase) (codes : d.codes.Proper) :
    d.toJson.Gives reader d := by
  have entries : List.Forall₂ record.Stands
      [("id", d.id.toJson), ("token_endpoint", .string d.tokenEndpoint.text),
        ("api_base", .string d.apiBase.text),
        ("credential_params",
          .object [("app_id", .string d.params.appId), ("app_secret", .string d.params.appSecret)]),
        ("codes", d.codes.toJson)]
      [("id", .id d.id), ("token_endpoint", .url d.tokenEndpoint), ("api_base", .url d.apiBase),
        ("credential_params", .params d.params), ("codes", .codes d.codes)] :=
    .cons ⟨rfl, _, rfl, d.id.gives.map Entry.id⟩ <|
      .cons ⟨rfl, _, rfl, (gives_url token).map Entry.url⟩ <|
      .cons ⟨rfl, _, rfl, (gives_url base).map Entry.url⟩ <|
      .cons ⟨rfl, _, rfl, (gives_params d.params).map Entry.params⟩ <|
      .cons ⟨rfl, _, rfl, (Codes.gives codes).map Entry.codes⟩ .nil
  exact Json.Record.gives_readAs entries (by simp) rfl

end Descriptor

end Issuer

namespace Identifier

variable {kind : Kind}

/-- An identifier is read from a document exactly where the document is a text that it can be made
of. -/
theorem decodeAll_reader_iff (doc : String) (id : Identifier kind) :
    Json.decodeAll (reader kind) doc = .ok id ↔
      ∃ text, Json.decodeAll Json.Reader.text doc = .ok text ∧ ofText kind text = .ok id := by
  simp only [Json.decodeAll_eq_ok, reader, Json.Reader.filterMap_eq_ok, Json.toOption_eq_some]
  constructor
  · rintro ⟨⟨text, told, made⟩, clean⟩
    exact ⟨text, ⟨told, clean⟩, made⟩
  · rintro ⟨text, ⟨told, clean⟩, made⟩
    exact ⟨⟨text, told, made⟩, clean⟩

theorem problem?_eq_none_iff (text : String) :
    problem? text = none ↔
      text ≠ "" ∧ (∀ c ∈ text.toList, Text.isBlank c = false) ∧ text.length ≤ maxLength := by
  simp only [problem?]
  split_ifs with empty blank long
  · have none : text = "" := String.isEmpty_iff.mp empty
    simp [none]
  · obtain ⟨c, member, blank⟩ := List.any_eq_true.mp blank
    refine iff_of_false nofun fun ⟨_, clear, _⟩ => ?_
    exact absurd (blank.symm.trans (clear c member)) nofun
  · exact iff_of_false nofun fun ⟨_, _, short⟩ => absurd short (by omega)
  · refine iff_of_true rfl ⟨fun none => empty (String.isEmpty_iff.mpr none), ?_, by omega⟩
    intro c member
    exact Bool.eq_false_iff.mpr fun found => blank (List.any_eq_true.mpr ⟨c, member, found⟩)

theorem exists_ofText_iff (text : String) :
    (∃ id, ofText kind text = .ok id) ↔
      text ≠ "" ∧ (∀ c ∈ text.toList, Text.isBlank c = false) ∧ text.length ≤ maxLength := by
  rw [← problem?_eq_none_iff]
  constructor
  · rintro ⟨id, made⟩
    rw [← ofText_eq_ok.mp made]
    exact id.accepted
  · intro accepted
    exact ⟨⟨text, accepted⟩, ofText_eq_ok.mpr rfl⟩

end Identifier

/-- What is written down comes back as it was: every configuration, all codes of 64 bits, every
identifier, and every descriptor that a draft is finished as, if its URLs come back from their own
texts. An identifier is read from a document exactly where the document is a text, and one that the
identifier can be made of: not empty, without blanks and not too long; and every text is in some
document. -/
theorem documents_round_trip [Url.Idna] :
    (∀ config : Config, RoundTrips Config.toJson Config.reader config) ∧
      (∀ codes : Issuer.Codes, codes.Proper →
        RoundTrips Issuer.Codes.toJson Issuer.Codes.reader codes) ∧
      (∀ kind (id : Identifier kind), RoundTrips Identifier.toJson (Identifier.reader kind) id) ∧
      (∀ id settings d, (∀ setting ∈ settings, Issuer.Setting.Proper setting) →
        ((Issuer.Draft.create id).setAll settings).build = .ok d →
        Url.parse d.tokenEndpoint.text = .ok d.tokenEndpoint →
        Url.parse d.apiBase.text = .ok d.apiBase →
        RoundTrips Issuer.Descriptor.toJson Issuer.Descriptor.reader d) ∧
      (∀ kind doc (id : Identifier kind), Json.decodeAll (Identifier.reader kind) doc = .ok id ↔
        ∃ text, Json.decodeAll Json.Reader.text doc = .ok text ∧
          Identifier.ofText kind text = .ok id) ∧
      (∀ kind text, (∃ id, Identifier.ofText kind text = .ok id) ↔
        text ≠ "" ∧ (∀ c ∈ text.toList, Text.isBlank c = false) ∧ text.length ≤ 128) ∧
      ∀ text, RoundTrips Json.Value.string Json.Reader.text text := by
  refine ⟨fun config => .of_gives config.gives,
    fun codes proper => .of_gives (Issuer.Codes.gives proper), fun _ id => .of_gives id.gives, ?_,
    fun _ => Identifier.decodeAll_reader_iff, fun _ => Identifier.exists_ofText_iff,
    fun text => .of_gives (Json.gives_text text)⟩
  intro id settings d proper built token base
  have codes : d.codes.Proper := by
    rw [Issuer.Draft.codes_of_build built]
    exact Issuer.Draft.proper_setAll Issuer.Codes.proper_default proper
  exact .of_gives (Issuer.Descriptor.gives token base codes)

section Samples

open Url.PlainNames

/-- The least code and the greatest one. -/
def extremeCodes : Issuer.Codes :=
  ⟨-0x8000000000000000, [-1, 0x7FFFFFFFFFFFFFFF]⟩

def sampleEndpoint : Url :=
  ⟨"https", "", none, some (.domain "issuer.example.com"), none, .segments ["token"], none, none⟩

/-- Choices with a quotation mark in a name and a negative code. -/
def sampleSettings : List Issuer.Setting :=
  [.tokenEndpoint sampleEndpoint, .appIdParam "app\"id", .expiryCode (-7)]

def sampleDescriptor : Issuer.Descriptor where
  id := ⟨"sample", by decide +kernel⟩
  tokenEndpoint := sampleEndpoint
  apiBase := sampleEndpoint.origin
  params := ⟨"app\"id", "secret"⟩
  codes := ⟨0, [-7, 40001, 42001]⟩

/-- The extreme codes and the descriptor of these choices come back, and an identifier is made of a
text outside the basic plane that is written in escapes. -/
theorem samples_round_trip :
    (extremeCodes.Proper ∧ RoundTrips Issuer.Codes.toJson Issuer.Codes.reader extremeCodes) ∧
      (((Issuer.Draft.create sampleDescriptor.id).setAll sampleSettings).build =
          .ok sampleDescriptor ∧
        RoundTrips Issuer.Descriptor.toJson Issuer.Descriptor.reader sampleDescriptor) ∧
      ∃ id : IssuerId,
        Json.decodeAll (Identifier.reader .issuer) "\"\\ud83d\\ude00\"" = .ok id ∧
          id.text = "😀" := by
  obtain ⟨-, codes, -, descriptors, identifiers, made, -⟩ := documents_round_trip
  have proper : extremeCodes.Proper :=
    ⟨by simp [extremeCodes, Issuer.IsCode], by simp [extremeCodes, Issuer.IsCode],
      by simp [extremeCodes]⟩
  have built : ((Issuer.Draft.create sampleDescriptor.id).setAll sampleSettings).build =
      .ok sampleDescriptor := rfl
  have settings : ∀ setting ∈ sampleSettings, setting.Proper := by
    simp [sampleSettings, Issuer.Setting.Proper, Issuer.IsCode]
  have token : Url.parse sampleDescriptor.tokenEndpoint.text =
      .ok sampleDescriptor.tokenEndpoint := Json.toOption_eq_some.mp (by decide +kernel)
  have base : Url.parse sampleDescriptor.apiBase.text = .ok sampleDescriptor.apiBase :=
    Json.toOption_eq_some.mp (by decide +kernel)
  have told : Json.decodeAll Json.Reader.text "\"\\ud83d\\ude00\"" = .ok "😀" :=
    Json.toOption_eq_some.mp (by decide +kernel)
  have passed : Identifier.problem? "😀" = none := by decide +kernel
  obtain ⟨id, accepted⟩ :=
    (made .issuer "😀").mpr ((Identifier.problem?_eq_none_iff _).mp passed)
  exact ⟨⟨proper, codes extremeCodes proper⟩,
    ⟨built, descriptors _ _ _ settings built token base⟩, id,
    (identifiers .issuer _ id).mpr ⟨_, told, accepted⟩, Identifier.ofText_eq_ok.mp accepted⟩

end Samples

end Bearer
