import Mathlib
import Bearer.Proofs.Issuer.Documents
import Bearer.Proofs.Issuer.Sound

/-!
What a draft comes to. Of the settings of one kind the last one counts, and a table takes the place
of all codes that were set before it. A draft is finished as what its settings come to where every
condition holds, and otherwise the first condition that does not hold is told.
-/
namespace Bearer

section Machine

/-- Lower case makes a small letter of itself and of its capital, and of nothing else. -/
theorem toLower_eq_iff {c small : Char} (letter : 'a'.val ≤ small.val ∧ small.val ≤ 'z'.val) :
    c.toLower = small ↔ c = small ∨ c = small.toUpper := by
  have least : 97 ≤ small.val.toNat := letter.1
  have most : small.val.toNat ≤ 122 := letter.2
  have down : ('A'.val - 'a'.val).toNat = 4294967264 := by decide
  have up : ('a'.val - 'A'.val).toNat = 32 := by decide
  have capital : small.toUpper.val.toNat = small.val.toNat - 32 := by
    rw [Char.toUpper, dif_pos letter]
    simp only [UInt32.toNat_add, down]
    omega
  rw [Char.toLower]
  split
  · next upper =>
      have above : 65 ≤ c.val.toNat := upper.1
      have below : c.val.toNat ≤ 90 := upper.2
      simp only [← Char.toNat_inj, Char.toNat, UInt32.toNat_add, up, capital]
      omega
  · next other =>
      have apart : ¬(65 ≤ c.val.toNat ∧ c.val.toNat ≤ 90) := other
      simp only [← Char.toNat_inj, Char.toNat, capital]
      omega

/-- The names and addresses of the machine itself: `localhost` in capitals or not, the addresses
that begin with the byte 127, and the last bit alone. -/
inductive Url.Host.IsMachine : Url.Host → Prop where
  | name (name : String)
      (letters : List.Forall₂ (fun c small => c = small ∨ c = small.toUpper) name.toList
        "localhost".toList) : IsMachine (.domain name)
  | ipv4 (rest : Nat) (three : rest < 2 ^ 24) : IsMachine (.ipv4 (127 * 2 ^ 24 + rest))
  | ipv6 : IsMachine (.ipv6 [0, 0, 0, 0, 0, 0, 0, 1])

theorem map_toLower_iff {text small : List Char}
    (letters : ∀ c ∈ small, 'a'.val ≤ c.val ∧ c.val ≤ 'z'.val) :
    text.map Char.toLower = small ↔
      List.Forall₂ (fun c small => c = small ∨ c = small.toUpper) text small := by
  induction text generalizing small with
  | nil => simp [eq_comm]
  | cons c rest ih =>
      cases small with
      | nil => simp
      | cons first others =>
          obtain ⟨here, later⟩ := List.forall_mem_cons.mp letters
          rw [List.map_cons, List.cons.injEq, toLower_eq_iff here, ih later, List.forall₂_cons]

theorem Url.Host.isLoopback_iff (host : Host) : host.isLoopback = true ↔ host.IsMachine := by
  cases host with
  | domain name =>
      have letters : ∀ c ∈ "localhost".toList, 'a'.val ≤ c.val ∧ c.val ≤ 'z'.val := by simp
      rw [isLoopback, decide_eq_true_eq, map_toLower_iff letters]
      exact ⟨.name name, fun | .name _ letters => letters⟩
  | ipv4 address =>
      rw [isLoopback, decide_eq_true_eq, Nat.shiftRight_eq_div_pow]
      constructor
      · intro first
        have whole : address = 127 * 2 ^ 24 + address % 2 ^ 24 := by omega
        rw [whole]
        exact .ipv4 _ (Nat.mod_lt _ (by decide))
      · intro | .ipv4 rest three => omega
  | ipv6 groups =>
      rw [isLoopback, decide_eq_true_eq]
      constructor
      · rintro rfl
        exact .ipv6
      · intro | .ipv6 => rfl

theorem Url.guarded_iff (url : Url) :
    url.Guarded ↔ url.scheme = "https" ∨ ∃ host, url.host = some host ∧ host.IsMachine := by
  simp only [Url.Guarded, Url.Host.isLoopback_iff]

end Machine

namespace Issuer

namespace Setting

def tokenEndpoint? : Setting → Option Url
  | .tokenEndpoint url => some url
  | _ => none

def apiBase? : Setting → Option Url
  | .apiBase url => some url
  | _ => none

def appIdParam? : Setting → Option String
  | .appIdParam name => some name
  | _ => none

def appSecretParam? : Setting → Option String
  | .appSecretParam name => some name
  | _ => none

def okCode? : Setting → Option Int
  | .okCode code => some code
  | _ => none

def codes? : Setting → Option Codes
  | .codes table => some table
  | _ => none

end Setting

section Choices

variable {α : Type}

/-- What was set last. -/
def lastSet (pick : Setting → Option α) (settings : List Setting) : Option α :=
  (settings.filterMap pick).getLast?

theorem lastSet_concat (pick : Setting → Option α) (settings : List Setting) (setting : Setting) :
    lastSet pick (settings ++ [setting]) = (pick setting).or (lastSet pick settings) := by
  rw [lastSet, List.filterMap_append, List.getLast?_append, lastSet]
  congr 1
  cases picked : pick setting <;> simp [picked]

/-- The table that was set last. -/
def lastTable (settings : List Setting) : Codes :=
  (lastSet Setting.codes? settings).getD .default

/-- The settings behind that table. -/
def sinceTable (settings : List Setting) : List Setting :=
  settings.rtakeWhile fun setting => setting.codes?.isNone

section Tables

variable {settings : List Setting} {setting : Setting} {table : Codes}

theorem lastTable_some (tabled : setting.codes? = some table) :
    lastTable (settings ++ [setting]) = table := by
  rw [lastTable, lastSet_concat, tabled]
  rfl

theorem lastTable_none (single : setting.codes? = none) :
    lastTable (settings ++ [setting]) = lastTable settings := by
  rw [lastTable, lastSet_concat, single]
  rfl

theorem sinceTable_some (tabled : setting.codes? = some table) :
    sinceTable (settings ++ [setting]) = [] :=
  List.rtakeWhile_concat_neg _ _ _ (by simp [tabled])

theorem sinceTable_none (single : setting.codes? = none) :
    sinceTable (settings ++ [setting]) = sinceTable settings ++ [setting] :=
  List.rtakeWhile_concat_pos _ _ _ (by simp [single])

end Tables

end Choices

namespace Draft

/-- The parts of a draft are what its settings come to, kind by kind. -/
structure ComesTo (id : IssuerId) (settings : List Setting) (draft : Draft) : Prop where
  id : draft.id = id
  tokenEndpoint : draft.tokenEndpoint = lastSet Setting.tokenEndpoint? settings
  apiBase : draft.apiBase = lastSet Setting.apiBase? settings
  appId : draft.params.appId = (lastSet Setting.appIdParam? settings).getD "appid"
  appSecret : draft.params.appSecret = (lastSet Setting.appSecretParam? settings).getD "secret"
  ok : draft.codes.ok =
    (lastSet Setting.okCode? (sinceTable settings)).getD (lastTable settings).ok
  expired : ∀ code, code ∈ draft.codes.expired ↔
    code ∈ (lastTable settings).expired ∨ .expiryCode code ∈ sinceTable settings
  ascending : (∀ table, .codes table ∈ settings → table.expired.Pairwise (· < ·)) →
    draft.codes.expired.Pairwise (· < ·)

theorem comesTo_create (id : IssuerId) : (create id).ComesTo id [] where
  id := rfl
  tokenEndpoint := rfl
  apiBase := rfl
  appId := rfl
  appSecret := rfl
  ok := rfl
  expired code := by
    simp only [sinceTable, List.rtakeWhile_nil, List.not_mem_nil, or_false]
    rfl
  ascending _ := Codes.proper_default.ascending

section Setting

variable (draft : Draft) (setting : Setting)

theorem tokenEndpoint_set :
    (draft.set setting).tokenEndpoint = setting.tokenEndpoint?.or draft.tokenEndpoint := by
  cases setting <;> rfl

theorem apiBase_set : (draft.set setting).apiBase = setting.apiBase?.or draft.apiBase := by
  cases setting <;> rfl

theorem appId_set :
    (draft.set setting).params.appId = setting.appIdParam?.getD draft.params.appId := by
  cases setting <;> rfl

theorem appSecret_set :
    (draft.set setting).params.appSecret = setting.appSecretParam?.getD draft.params.appSecret := by
  cases setting <;> rfl

variable {draft setting}

theorem codes_set {table : Codes} (tabled : setting.codes? = some table) :
    (draft.set setting).codes = table := by
  cases setting <;> cases tabled
  rfl

variable (single : setting.codes? = none)
include single

theorem ok_set : (draft.set setting).codes.ok = setting.okCode?.getD draft.codes.ok := by
  cases setting with
  | codes table => cases single
  | _ => rfl

theorem mem_expired_set (code : Int) :
    code ∈ (draft.set setting).codes.expired ↔
      code ∈ draft.codes.expired ∨ setting = .expiryCode code := by
  cases setting with
  | codes table => cases single
  | expiryCode other => simp [set, Codes.mem_insert, or_comm, eq_comm]
  | _ => simp [set]

theorem ascending_set (before : draft.codes.expired.Pairwise (· < ·)) :
    (draft.set setting).codes.expired.Pairwise (· < ·) := by
  cases setting with
  | codes table => cases single
  | expiryCode code => exact Codes.pairwise_insert before code
  | _ => exact before

end Setting

/-- One more setting: what it sets is the last of its kind, and all else is as it was. -/
theorem ComesTo.set {id : IssuerId} {settings : List Setting} {draft : Draft}
    (before : draft.ComesTo id settings) (setting : Setting) :
    (draft.set setting).ComesTo id (settings ++ [setting]) where
  id := by cases setting <;> exact before.id
  tokenEndpoint := by rw [tokenEndpoint_set, before.tokenEndpoint, lastSet_concat]
  apiBase := by rw [apiBase_set, before.apiBase, lastSet_concat]
  appId := by rw [appId_set, before.appId, lastSet_concat, Option.getD_or]
  appSecret := by rw [appSecret_set, before.appSecret, lastSet_concat, Option.getD_or]
  ok := by
    cases tabled : setting.codes? with
    | some table => rw [codes_set tabled, sinceTable_some tabled, lastTable_some tabled]; rfl
    | none =>
        rw [ok_set tabled, before.ok, sinceTable_none tabled, lastTable_none tabled, lastSet_concat,
          Option.getD_or]
  expired code := by
    cases tabled : setting.codes? with
    | some table =>
        rw [codes_set tabled, sinceTable_some tabled, lastTable_some tabled]
        exact (or_iff_left List.not_mem_nil).symm
    | none =>
        rw [mem_expired_set tabled, before.expired, sinceTable_none tabled, lastTable_none tabled,
          List.mem_append, List.mem_singleton, or_assoc, eq_comm]
  ascending all := by
    cases tabled : setting.codes? with
    | some table =>
        rw [codes_set tabled]
        refine all table (List.mem_append_right _ ?_)
        cases setting <;> cases tabled
        exact List.mem_cons_self
    | none =>
        exact ascending_set tabled <| before.ascending fun table member =>
          all table (List.mem_append_left _ member)

/-- What any settings come to, by induction on them from the last one back. -/
theorem comesTo_setAll (id : IssuerId) (settings : List Setting) :
    ((create id).setAll settings).ComesTo id settings := by
  induction settings using List.reverseRecOn with
  | nil => exact comesTo_create id
  | append_singleton settings setting ih =>
      rw [setAll, List.foldl_append]
      exact ih.set setting

end Draft

section Conditions

/-- A condition, and the fault that is told where it does not hold. -/
structure Condition where
  holds : Prop
  fault : DescriptorFault

/-- The first condition that does not hold has this fault. -/
def FirstBroken (conditions : List Condition) (fault : DescriptorFault) : Prop :=
  ∃ before broken behind, conditions = before ++ broken :: behind ∧
    (∀ condition ∈ before, condition.holds) ∧ ¬broken.holds ∧ broken.fault = fault

theorem not_firstBroken_nil (fault : DescriptorFault) : ¬FirstBroken [] fault := by
  rintro ⟨before, broken, behind, split, -⟩
  cases before <;> cases split

theorem firstBroken_cons {condition : Condition} {rest : List Condition} {fault : DescriptorFault} :
    FirstBroken (condition :: rest) fault ↔
      (¬condition.holds ∧ condition.fault = fault) ∨
        (condition.holds ∧ FirstBroken rest fault) := by
  constructor
  · rintro ⟨before, broken, behind, split, held, fails, told⟩
    cases before with
    | nil =>
        cases split
        exact .inl ⟨fails, told⟩
    | cons first others =>
        cases split
        obtain ⟨here, later⟩ := List.forall_mem_cons.mp held
        exact .inr ⟨here, others, broken, behind, rfl, later, fails, told⟩
  · rintro (⟨fails, told⟩ | ⟨holds, before, broken, behind, rfl, held, fails, told⟩)
    · exact ⟨[], condition, rest, rfl, nofun, fails, told⟩
    · exact ⟨condition :: before, broken, behind, rfl, List.forall_mem_cons.mpr ⟨holds, held⟩,
        fails, told⟩

/-- Credentials may be asked for there: over HTTPS, or from the machine itself. -/
def secure (endpoint : Endpoint) (url : Url) : Condition :=
  ⟨url.scheme = "https" ∨ ∃ host, url.host = some host ∧ host.IsMachine,
    .insecureEndpoint endpoint url.text⟩

theorem secure_iff (endpoint : Endpoint) (url : Url) :
    (secure endpoint url).holds ↔ isSecure url = true := by
  rw [isSecure_iff, url.guarded_iff]
  rfl

/-- What a descriptor has to fulfil, in the order in which it is looked at. -/
def Descriptor.conditions (d : Descriptor) : List Condition :=
  [secure .token d.tokenEndpoint, secure .apiBase d.apiBase,
    ⟨d.params.appId ≠ "", .emptyParameterName .appId⟩,
    ⟨d.params.appSecret ≠ "", .emptyParameterName .appSecret⟩,
    ⟨d.codes.ok ∉ d.codes.expired, .okCodeMarkedExpired d.codes.ok⟩]

theorem Descriptor.fault?_eq_some_iff (d : Descriptor) (fault : DescriptorFault) :
    d.fault? = some fault ↔ FirstBroken d.conditions fault := by
  simp only [conditions, firstBroken_cons, not_firstBroken_nil, secure_iff, and_false, or_false,
    fault?]
  split_ifs <;> simp_all [secure]

theorem Descriptor.fault?_eq_none (d : Descriptor) :
    d.fault? = none ↔ ∀ condition ∈ d.conditions, condition.holds := by
  have token : d.tokenEndpoint.Guarded ↔ (secure .token d.tokenEndpoint).holds :=
    d.tokenEndpoint.guarded_iff
  have base : d.apiBase.Guarded ↔ (secure .apiBase d.apiBase).holds := d.apiBase.guarded_iff
  simp only [conditions, List.forall_mem_cons, List.not_mem_nil, false_implies, implies_true,
    and_true, ← token, ← base, fault?_eq_none_iff]
  exact ⟨fun ⟨token, base, app, secret, codes⟩ => ⟨token, base, app, secret, codes⟩,
    fun ⟨token, base, app, secret, codes⟩ => ⟨token, base, app, secret, codes⟩⟩

namespace Draft

/-- The descriptor of the parts of a draft, with this token endpoint. -/
def finished (draft : Draft) (token : Url) : Descriptor :=
  ⟨draft.id, token, draft.apiBase.getD token.origin, draft.params, draft.codes⟩

/-- What a draft has to fulfil: to have a token endpoint, before anything else. -/
def conditions (draft : Draft) : List Condition :=
  ⟨draft.tokenEndpoint.isSome, .missingTokenEndpoint⟩ ::
    draft.tokenEndpoint.elim [] fun token => (draft.finished token).conditions

theorem build_some {draft : Draft} {token : Url} (given : draft.tokenEndpoint = some token) :
    draft.build =
      match (draft.finished token).fault? with
      | none => .ok (draft.finished token)
      | some fault => .error fault := by
  rw [build, given]
  rfl

theorem build_eq_ok_iff (draft : Draft) (d : Descriptor) :
    draft.build = .ok d ↔ draft.tokenEndpoint.map draft.finished = some d ∧
      ∀ condition ∈ draft.conditions, condition.holds := by
  cases given : draft.tokenEndpoint with
  | none => simp [build, given]
  | some token =>
      have checked := (draft.finished token).fault?_eq_none
      simp only [conditions, given, Option.isSome_some, List.forall_mem_cons, true_and,
        Option.elim_some, ← checked, Option.map_some, Option.some.injEq, build_some given]
      cases (draft.finished token).fault? <;> simp

theorem build_eq_error_iff (draft : Draft) (fault : DescriptorFault) :
    draft.build = .error fault ↔ FirstBroken draft.conditions fault := by
  cases given : draft.tokenEndpoint with
  | none => simp [build, conditions, given, firstBroken_cons, not_firstBroken_nil, eq_comm]
  | some token =>
      have checked := (draft.finished token).fault?_eq_some_iff fault
      simp only [conditions, given, Option.isSome_some, firstBroken_cons, Option.elim_some,
        ← checked, not_true_eq_false, false_and, false_or, true_and, build_some given]
      cases (draft.finished token).fault? <;> simp

end Draft

end Conditions

theorem Codes.classify_iff (codes : Codes) (code : Int) :
    (codes.classify code = .ok ↔ code = codes.ok) ∧
      (codes.classify code = .expired ↔ code ≠ codes.ok ∧ code ∈ codes.expired) ∧
      (codes.classify code = .terminal ↔ code ≠ codes.ok ∧ code ∉ codes.expired) := by
  simp only [classify]
  split_ifs <;> simp_all

/-- Whatever settings are made, in whatever order: the draft is what they come to, and it is
finished exactly as that where all conditions hold; otherwise the first one that does not hold is
told. Without an address of its own the interface is at the root of the token endpoint's site. -/
theorem build_decided_by_settings (id : IssuerId) (settings : List Setting) :
    let draft := (Draft.create id).setAll settings
    draft.ComesTo id settings ∧
      (∀ d, draft.build = .ok d ↔ draft.tokenEndpoint.map draft.finished = some d ∧
        ∀ condition ∈ draft.conditions, condition.holds) ∧
      (∀ fault, draft.build = .error fault ↔ FirstBroken draft.conditions fault) ∧
      (lastSet Setting.apiBase? settings = none → ∀ d, draft.build = .ok d →
        d.apiBase.scheme = d.tokenEndpoint.scheme ∧ d.apiBase.host = d.tokenEndpoint.host ∧
          d.apiBase.port = d.tokenEndpoint.port ∧ d.apiBase.path.text = "/" ∧
          d.apiBase.query = none ∧ d.apiBase.fragment = none) ∧
      ∀ d, draft.build = .ok d → ∀ code,
        (d.classify code = .ok ↔ code = d.codes.ok) ∧
          (d.classify code = .expired ↔ code ∈ d.codes.expired) ∧
          (d.classify code = .terminal ↔ code ≠ d.codes.ok ∧ code ∉ d.codes.expired) := by
  intro draft
  have comes : draft.ComesTo id settings := Draft.comesTo_setAll id settings
  refine ⟨comes, draft.build_eq_ok_iff, draft.build_eq_error_iff, ?_, ?_⟩
  · intro unset d built
    obtain ⟨finished, -⟩ := (draft.build_eq_ok_iff d).mp built
    obtain ⟨token, -, rfl⟩ := Option.map_eq_some_iff.mp finished
    have base : (draft.finished token).apiBase = token.origin := by
      rw [Draft.finished, comes.apiBase, unset]
      rfl
    rw [base]
    exact ⟨rfl, rfl, rfl, rfl, rfl, rfl⟩
  · intro d built code
    have sound := Descriptor.sound_of_build built
    obtain ⟨ok, expired, terminal⟩ := d.codes.classify_iff code
    refine ⟨ok, expired.trans (and_iff_right_of_imp ?_), terminal⟩
    rintro member rfl
    exact sound.codes member

/-- A second table takes the place of the first and of the code between them, and the interface is
found at the root of the machine's own site. -/
theorem build_of_two_tables :
    let site : Url :=
      ⟨"http", "", none, some (.ipv4 0x7F000001), some 8080, .segments ["token"], some "a=b", none⟩
    let settings : List Setting :=
      [.codes ⟨1, [5]⟩, .expiryCode 3, .tokenEndpoint site, .codes ⟨2, [9]⟩, .expiryCode 4]
    let built : Descriptor :=
      ⟨sampleDescriptor.id, site,
        ⟨"http", "", none, some (.ipv4 0x7F000001), some 8080, .segments [""], none, none⟩,
        ⟨"appid", "secret"⟩, ⟨2, [4, 9]⟩⟩
    ((Draft.create sampleDescriptor.id).setAll settings).build = .ok built ∧
      lastSet Setting.apiBase? settings = none ∧
      (∀ table, .codes table ∈ settings → table.expired.Pairwise (· < ·)) ∧
      built.codes.expired.Pairwise (· < ·) ∧ built.apiBase.path.text = "/" ∧
      built.classify 4 = .expired ∧ built.classify 3 = .terminal := by
  intro site settings built
  have done : ((Draft.create sampleDescriptor.id).setAll settings).build = .ok built := rfl
  have unset : lastSet Setting.apiBase? settings = none := rfl
  have tables : ∀ table, .codes table ∈ settings → table.expired.Pairwise (· < ·) := by
    simp [settings]
  obtain ⟨comes, -, -, root, classes⟩ :=
    build_decided_by_settings sampleDescriptor.id settings
  obtain ⟨-, -, -, path, -⟩ := root unset built done
  exact ⟨done, unset, tables, comes.ascending tables, path,
    (classes built done 4).2.1.mpr (by decide), (classes built done 3).2.2.mpr (by decide)⟩

end Issuer

end Bearer
