import Mathlib
import Bearer.Proofs.Text.Lossy
import Bearer.Proofs.Url.Form
import Bearer.Url.Form

/-!
What a longer query holds. Behind a final equals sign the form encoding of a text belongs to the
value of the last pair, which is longer by that text when it is read; all other pairs stay.
-/
namespace Bearer.Url

section Cuts

variable {α : Type} [DecidableEq α] {sep : α}

/-- The parts are those of the library's function. -/
theorem splitOn_eq (sep : α) (text : List α) : splitOn sep text = List.splitOn sep text := by
  induction text with
  | nil => rfl
  | cons a rest ih =>
      rw [splitOn, ih, List.splitOn_cons_eq_if_modifyHead]
      by_cases same : a = sep
      · rw [if_pos same, if_pos (beq_iff_eq.mpr same)]
      · rw [if_neg same, if_neg (mt beq_iff_eq.mp same)]
        cases parts : List.splitOn sep rest with
        | nil => exact absurd parts (List.splitOn_ne_nil sep rest)
        | cons part more => rfl

theorem splitOn_single {text : List α} (absent : sep ∉ text) : splitOn sep text = [text] := by
  rw [splitOn_eq, List.splitOn_eq_singleton absent]

/-- A separator parts what stands before it from what stands behind it. -/
theorem splitOn_parted (sep : α) (text behind : List α) :
    splitOn sep (text ++ sep :: behind) = splitOn sep text ++ splitOn sep behind := by
  simp only [splitOn_eq, List.splitOn_append_cons_self]

/-- What stands behind a text goes to its last part, as far as no separator comes. -/
theorem splitOn_append (sep : α) (text : List α) : ∃ earlier last,
    ∀ behind, sep ∉ behind → splitOn sep (text ++ behind) = earlier ++ [last ++ behind] := by
  induction text with
  | nil => exact ⟨[], [], fun behind absent => splitOn_single absent⟩
  | cons a rest ih =>
      obtain ⟨earlier, last, parts⟩ := ih
      by_cases same : a = sep
      · refine ⟨[] :: earlier, last, fun behind absent => ?_⟩
        rw [List.cons_append, splitOn, if_pos same, parts behind absent, List.cons_append]
      · cases earlier with
        | nil =>
            refine ⟨[], a :: last, fun behind absent => ?_⟩
            rw [List.cons_append, splitOn, if_neg same, parts behind absent]
            rfl
        | cons first others =>
            refine ⟨(a :: first) :: others, last, fun behind absent => ?_⟩
            rw [List.cons_append, splitOn, if_neg same, parts behind absent]
            rfl

/-- The part behind the first separator ends with a separator that ends the text, unless that is
the first one. -/
theorem cutAt_append (sep : α) (text : List α) : ∃ front after,
    (after = [] ∨ ∃ before, after = before ++ [sep]) ∧
      ∀ behind, cutAt sep (text ++ sep :: behind) = (front, some (after ++ behind)) := by
  induction text with
  | nil => exact ⟨[], [], .inl rfl, fun behind => by rw [List.nil_append, cutAt, if_pos rfl]; rfl⟩
  | cons a rest ih =>
      obtain ⟨front, after, ends, cut⟩ := ih
      by_cases same : a = sep
      · refine ⟨[], rest ++ [sep], .inr ⟨rest, rfl⟩, fun behind => ?_⟩
        rw [List.cons_append, cutAt, if_pos same, List.append_assoc, List.singleton_append]
      · refine ⟨a :: front, after, ends, fun behind => ?_⟩
        rw [List.cons_append, cutAt, if_neg same, cut]

theorem cutAt_append_absent {base tail : List α} (absent : sep ∉ base) :
    cutAt sep (base ++ tail) = (base ++ (cutAt sep tail).1, (cutAt sep tail).2) := by
  induction base with
  | nil => rfl
  | cons c rest ih =>
      obtain ⟨other, later⟩ := List.ne_and_not_mem_of_not_mem_cons absent
      rw [List.cons_append, cutAt, if_neg (Ne.symm other), ih later, List.cons_append]

theorem cutAt_eq_none {text : List α} (absent : sep ∉ text) : cutAt sep text = (text, none) := by
  have cut : cutAt sep (text ++ []) = _ := cutAt_append_absent absent
  simpa [cutAt] using cut

theorem cutAt_first {text : List α} (absent : sep ∉ text) (behind : List α) :
    cutAt sep (text ++ sep :: behind) = (text, some behind) := by
  simp [cutAt_append_absent absent, cutAt]

end Cuts

/-- A percent sign stands for itself where what follows are not two digits. -/
theorem percentDecode_sign {a b : UInt8} (lone : Text.hexValue a = none ∨ Text.hexValue b = none)
    (rest : List UInt8) :
    percentDecode (0x25 :: a :: b :: rest) = 0x25 :: percentDecode (a :: b :: rest) := by
  rw [percentDecode]
  split
  · next high low =>
      rcases lone with none | none
      · cases high.symm.trans none
      · cases low.symm.trans none
  · rfl

/-- An equals sign is no digit, so what stands before it is read without what follows. -/
theorem percentDecode_append (bytes rest : List UInt8) :
    percentDecode (bytes ++ 0x3D :: rest) = percentDecode bytes ++ 0x3D :: percentDecode rest := by
  have plain : percentDecode (0x3D :: rest) = 0x3D :: percentDecode rest :=
    percentDecode_cons (by decide) rest
  fun_induction percentDecode bytes with
  | case1 a b later high low atHigh atLow ih =>
      simp only [List.cons_append, percentDecode, atHigh, atLow, ih]
  | case2 a b later lone ih =>
      have digitless : Text.hexValue a = none ∨ Text.hexValue b = none := by
        cases first : Text.hexValue a with
        | none => exact .inl rfl
        | some high =>
            cases second : Text.hexValue b with
            | none => exact .inr rfl
            | some low => exact absurd second (lone high low first)
      simp only [List.cons_append, percentDecode_sign digitless] at ih ⊢
      rw [ih]
  | case3 b later lone ih =>
      by_cases sign : b = 0x25
      · subst sign
        cases later with
        | nil =>
            cases rest with
            | nil => rfl
            | cons x more =>
                have digitless := percentDecode_sign (a := 0x3D) (b := x) (.inl rfl) more
                simp only [List.cons_append, List.nil_append, digitless, plain, percentDecode]
        | cons a more =>
            cases more with
            | nil =>
                have digitless := percentDecode_sign (a := a) (b := 0x3D) (.inr rfl) rest
                simp only [List.cons_append, List.nil_append] at ih ⊢
                rw [digitless, ih]
            | cons c others => exact absurd rfl (lone a c others rfl)
      · simp only [List.cons_append, percentDecode_cons sign, ih]
  | case4 => exact plain

/-- The characters in which the form encoding writes. They are visible, they separate nothing in a
URL or in a query, and a query takes them as they are. -/
structure FormChar (c : Char) : Prop where
  visible : 0x20 < c.toNat
  ascii : c.toNat < 0x80
  separates : c ∉ ['#', '?', '&']
  kept : avoidedInSpecialQuery c.toNat.toUInt8 = false

instance (c : Char) : Decidable (FormChar c) :=
  decidable_of_iff (0x20 < c.toNat ∧ c.toNat < 0x80 ∧ c ∉ ['#', '?', '&'] ∧
      avoidedInSpecialQuery c.toNat.toUInt8 = false)
    ⟨fun ⟨visible, ascii, separates, kept⟩ => ⟨visible, ascii, separates, kept⟩,
      fun ⟨visible, ascii, separates, kept⟩ => ⟨visible, ascii, separates, kept⟩⟩

theorem all_formByte : ∀ b : Fin 256,
    ((formByte (UInt8.ofFin b)).all fun c => FormChar c) = true := by
  decide +kernel

theorem formChar_of_mem {text : List Char} {c : Char} (written : c ∈ formEncode text) :
    FormChar c := by
  obtain ⟨d, -, member⟩ := List.mem_flatMap.mp written
  obtain ⟨b, -, member⟩ := List.mem_flatMap.mp member
  exact of_decide_eq_true (List.all_eq_true.mp (all_formByte b.toFin) c member)

/-- The bytes of a query that are read as a text: those in which the text is written. -/
def formBytes (text : String) : List UInt8 :=
  Text.utf8 (String.ofList (formEncode text.toList))

theorem formBytes_eq (text : String) :
    formBytes text = (formEncode text.toList).map fun c => c.toNat.toUInt8 := by
  have each : ∀ c ∈ formEncode text.toList, String.utf8EncodeChar c = [c.toNat.toUInt8] :=
    fun c member => Text.utf8EncodeChar_low (formChar_of_mem member).ascii
  rw [formBytes, Text.utf8_ofList, List.flatMap_congr each, List.map_eq_flatMap]

theorem eq_of_byte_eq {c d : Char} (ascii : c.toNat < 0x80) (low : d.toNat < 0x80)
    (same : c.toNat.toUInt8 = d.toNat.toUInt8) : c = d := by
  have number := congrArg UInt8.toNat same
  simp only [UInt8.toNat_ofNat', Nat.toUInt8] at number
  exact Char.toNat_inj.mp (by omega)

theorem plusToSpace_byte {c : Char} (ascii : c.toNat < 0x80) :
    plusToSpace c.toNat.toUInt8 = formPlain c := by
  by_cases plus : c = '+'
  · subst plus
    rfl
  · have other : c.toNat.toUInt8 ≠ 0x2B := fun same =>
      plus (eq_of_byte_eq ascii (d := '+') (by decide) same)
    simp [plusToSpace, formPlain, plus, other]

theorem not_mem_formBytes (text : String) : 0x26 ∉ formBytes text := by
  rw [formBytes_eq]
  intro member
  obtain ⟨c, written, same⟩ := List.mem_map.mp member
  have form := formChar_of_mem written
  have ampersand : c = '&' := eq_of_byte_eq form.ascii (by decide) same
  exact form.separates (by simp [ampersand])

theorem percentDecode_formBytes_text (text : String) :
    percentDecode ((formBytes text).map plusToSpace) =
      text.toList.flatMap String.utf8EncodeChar := by
  have each : ∀ c ∈ formEncode text.toList, plusToSpace c.toNat.toUInt8 = formPlain c :=
    fun c member => plusToSpace_byte (formChar_of_mem member).ascii
  rw [formBytes_eq, List.map_map, ← percentDecode_formEncode]
  exact congrArg percentDecode (List.map_congr_left each)

theorem formText_formBytes (text : String) : formText (formBytes text) = text := by
  rw [formText, percentDecode_formBytes_text, Text.lossy_utf8, String.ofList_toList]

/-- What a value is read as that ends with an equals sign, where more is written behind it. -/
theorem formText_append (before : List UInt8) (text : String) :
    formText (before ++ 0x3D :: formBytes text) = formText (before ++ [0x3D]) ++ text := by
  have same : plusToSpace 0x3D = 0x3D := rfl
  have ended := percentDecode_append (before.map plusToSpace) []
  have low : (0x3D : UInt8).toNat < 0x80 := by decide
  simp only [formText, List.map_append, List.map_cons, List.map_nil, same, percentDecode_append,
    percentDecode_formBytes_text]
  rw [Text.lossy_append _ low, Text.lossy_utf8, String.ofList_append, String.ofList_toList]
  rfl

theorem formPair_append (part : List UInt8) : ∃ name value,
    ∀ behind : String, formPair (part ++ 0x3D :: formBytes behind) = (name, value ++ behind) := by
  obtain ⟨front, after, ends, cut⟩ := cutAt_append 0x3D part
  obtain rfl | ⟨before, rfl⟩ := ends
  · refine ⟨formText front, "", fun behind => ?_⟩
    simp only [formPair, cut, Option.getD_some, List.nil_append, formText_formBytes,
      String.empty_append]
  · refine ⟨formText front, formText (before ++ [0x3D]), fun behind => ?_⟩
    simp only [formPair, cut, Option.getD_some, List.append_assoc, List.singleton_append,
      formText_append]

/-- Where the form encoding of a text is written behind a query that ends with an equals sign, the
value of the last pair is longer by the text, and all other pairs stay. -/
theorem formPairs_append {query : String} (slot : query.toList.getLast? = some '=') :
    ∃ earlier name value, formPairs query = earlier ++ [(name, value)] ∧
      ∀ text : String, formPairs (query ++ String.ofList (formEncode text.toList)) =
        earlier ++ [(name, value ++ text)] := by
  obtain ⟨front, split⟩ := List.getLast?_eq_some_iff.mp slot
  have equals : String.utf8EncodeChar '=' = [0x3D] := by decide
  have bytes : Text.utf8 query = front.flatMap String.utf8EncodeChar ++ [0x3D] := by
    rw [Text.utf8_eq_flatMap, split, List.flatMap_append, List.flatMap_singleton, equals]
  obtain ⟨parts, last, cut⟩ := splitOn_append (0x26 : UInt8) (front.flatMap String.utf8EncodeChar)
  obtain ⟨name, value, read⟩ := formPair_append last
  have longer : ∀ text : String, formPairs (query ++ String.ofList (formEncode text.toList)) =
      (parts.filter (· ≠ [])).map formPair ++ [(name, value ++ text)] := by
    intro text
    have inert : (0x26 : UInt8) ∉ 0x3D :: formBytes text :=
      List.not_mem_cons_of_ne_of_not_mem (by decide) (not_mem_formBytes text)
    have whole : Text.utf8 (query ++ String.ofList (formEncode text.toList)) =
        front.flatMap String.utf8EncodeChar ++ 0x3D :: formBytes text := by
      rw [Text.utf8_append, bytes, formBytes, List.append_assoc, List.singleton_append]
    rw [formPairs, whole, cut _ inert]
    simp [read]
  refine ⟨_, name, value, ?_, longer⟩
  have empty := longer ""
  simpa [formEncode] using empty

/-- Pairs behind an ampersand come after the pairs before it. -/
theorem formPairs_parted (query behind : String) :
    formPairs (query ++ "&" ++ behind) = formPairs query ++ formPairs behind := by
  have ampersand : Text.utf8 "&" = [0x26] := by decide
  have bytes : Text.utf8 (query ++ "&" ++ behind) =
      Text.utf8 query ++ 0x26 :: Text.utf8 behind := by
    rw [Text.utf8_append, Text.utf8_append, ampersand, List.append_assoc, List.singleton_append]
  rw [formPairs, bytes, splitOn_parted, List.filter_append, List.map_append, formPairs, formPairs]

theorem equals_not_formed : ∀ b : Fin 256, '=' ∉ formByte (UInt8.ofFin b) := by
  decide +kernel

theorem equals_not_mem_formBytes (text : String) : 0x3D ∉ formBytes text := by
  rw [formBytes_eq]
  intro member
  obtain ⟨c, written, same⟩ := List.mem_map.mp member
  have equals : c = '=' := eq_of_byte_eq (formChar_of_mem written).ascii (by decide) same
  obtain ⟨d, -, among⟩ := List.mem_flatMap.mp written
  obtain ⟨b, -, among⟩ := List.mem_flatMap.mp among
  exact equals_not_formed b.toFin (equals ▸ among)

/-- A name and a value in the form encoding, with an equals sign between them. -/
def pairText (name value : String) : String :=
  String.ofList (formEncode name.toList ++ '=' :: formEncode value.toList)

/-- They are read as that one pair. -/
theorem formPairs_pairText (name value : String) :
    formPairs (pairText name value) = [(name, value)] := by
  have equals : String.utf8EncodeChar '=' = [0x3D] := by decide
  have bytes : Text.utf8 (pairText name value) = formBytes name ++ 0x3D :: formBytes value := by
    rw [pairText, Text.utf8_ofList, List.flatMap_append, List.flatMap_cons, equals, formBytes,
      formBytes, Text.utf8_ofList, Text.utf8_ofList, List.singleton_append]
  have whole : (0x26 : UInt8) ∉ formBytes name ++ 0x3D :: formBytes value :=
    List.not_mem_append (not_mem_formBytes name)
      (List.not_mem_cons_of_ne_of_not_mem (by decide) (not_mem_formBytes value))
  rw [formPairs, bytes, splitOn_single whole]
  simp [formPair, cutAt_first (equals_not_mem_formBytes name), formText_formBytes]

end Bearer.Url
