import Mathlib
import Bearer.Proofs.Url.Marks

/-!
Addresses written and read. What is read as an address is written as four decimal numbers or as
groups of hexadecimal ones, the longest run of zeros left out, and is read from that as itself.
-/
namespace Bearer.Url

section Numbers

/-- One more digit of a number. -/
def nextDigit (base : Nat) (n : Option Nat) (c : Char) : Option Nat := do
  let n ← n
  let d ← charHexValue c
  if d < base then some (n * base + d) else none

theorem numberIn_eq (base : Nat) (text : List Char) :
    numberIn base text = text.foldl (nextDigit base) (some 0) :=
  rfl

theorem foldl_nextDigit_none (base : Nat) (text : List Char) :
    text.foldl (nextDigit base) none = none := by
  induction text with
  | nil => rfl
  | cons c rest ih => exact ih

theorem lt_of_foldl_nextDigit {base n m : Nat} {text : List Char}
    (read : text.foldl (nextDigit base) (some m) = some n) : n < (m + 1) * base ^ text.length := by
  induction text generalizing m with
  | nil =>
      cases read
      simp
  | cons c rest ih =>
      rw [List.foldl_cons] at read
      cases next : nextDigit base (some m) c with
      | none =>
          rw [next, foldl_nextDigit_none] at read
          cases read
      | some k =>
          rw [next] at read
          have below := ih read
          obtain ⟨d, -, step⟩ := Option.bind_eq_some_iff.mp next
          split at step
          · next small =>
              cases step
              rw [List.length_cons, pow_succ']
              calc n < (m * base + d + 1) * base ^ rest.length := below
                _ ≤ ((m + 1) * base) * base ^ rest.length := by
                  apply Nat.mul_le_mul_right
                  rw [Nat.add_mul, Nat.one_mul]
                  omega
                _ = (m + 1) * (base * base ^ rest.length) := Nat.mul_assoc ..
          · cases step

theorem numberIn_lt {base n : Nat} {text : List Char} (read : numberIn base text = some n) :
    n < base ^ text.length := by
  simpa using lt_of_foldl_nextDigit read

theorem charHexValue_digitChar : ∀ k : Fin 16, charHexValue (Nat.digitChar k) = some k.val := by
  decide

theorem nextDigit_digitChar {base k : Nat} (most : base ≤ 16) (small : k < base) (n : Nat) :
    nextDigit base (some n) (Nat.digitChar k) = some (n * base + k) := by
  have value := charHexValue_digitChar ⟨k, by omega⟩
  simp only [nextDigit, value, Option.bind_eq_bind, Option.bind_some, if_pos small]

/-- A number is read from its digits. -/
theorem numberIn_toDigits {base : Nat} (least : 1 < base) (most : base ≤ 16) (n : Nat) :
    numberIn base (Nat.toDigits base n) = some n := by
  rw [numberIn_eq]
  induction n using Nat.strongRecOn with
  | _ n ih =>
    rcases Nat.lt_or_ge n base with small | large
    · rw [Nat.toDigits_of_lt_base small, List.foldl_cons, List.foldl_nil,
        nextDigit_digitChar most small, Nat.zero_mul, Nat.zero_add]
    · have shorter : n / base < n := Nat.div_lt_self (by omega) least
      have rest : n % base < base := Nat.mod_lt n (by omega)
      rw [Nat.toDigits_of_base_le least large, List.foldl_append, ih _ shorter, List.foldl_cons,
        List.foldl_nil, nextDigit_digitChar most rest, Nat.div_add_mod']

end Numbers

section Joined

/-- Texts are read one by one. -/
theorem mapM_eq_some_iff {α β : Type} {read : α → Option β} {texts : List α} {values : List β} :
    texts.mapM read = some values ↔ List.Forall₂ (fun t v => read t = some v) texts values := by
  induction texts generalizing values with
  | nil => simp [eq_comm]
  | cons t rest ih =>
      rw [List.mapM_cons, Option.bind_eq_bind, Option.bind_eq_some_iff]
      constructor
      · rintro ⟨v, here, later⟩
        obtain ⟨others, all, same⟩ := Option.bind_eq_some_iff.mp later
        cases same
        exact .cons here (ih.mp all)
      · rintro (_ | ⟨here, later⟩)
        exact ⟨_, here, Option.bind_eq_some_iff.mpr ⟨_, ih.mpr later, rfl⟩⟩

/-- Texts between signs. -/
def joined (sep : Char) (parts : List (List Char)) : List Char :=
  [sep].intercalate parts

variable {sep : Char} {parts : List (List Char)}

theorem joined_cons (sep : Char) (part next : List Char) (others : List (List Char)) :
    joined sep (part :: next :: others) = part ++ sep :: joined sep (next :: others) := by
  rw [joined, List.intercalate_cons_cons, List.append_assoc, List.singleton_append, joined]

theorem splitOn_joined (absent : ∀ part ∈ parts, sep ∉ part) (some : parts ≠ []) :
    splitOn sep (joined sep parts) = parts := by
  rw [splitOn_eq, joined, List.splitOn_intercalate sep absent some]

end Joined

namespace Ipv4

theorem part_decimal : ∀ b : Fin 256, part (Nat.toDigits 10 b) = some b.val := by
  decide +kernel

theorem isDigit_decimal {n : Nat} {c : Char} (member : c ∈ Nat.toDigits 10 n) :
    c.isDigit = true :=
  Nat.isDigit_of_mem_toDigits (by decide) (by decide) member

/-- An address is four bytes, written between points. -/
theorem exists_bytes {address : Nat} (small : address < 2 ^ 32) : ∃ a b c d : Fin 256,
    address = ((a.val * 256 + b) * 256 + c) * 256 + d ∧
      splitOn '.' (text address).toList = [a, b, c, d].map fun b => Nat.toDigits 10 b.val := by
  refine ⟨⟨address / 2 ^ 24, by omega⟩, ⟨address / 2 ^ 16 % 256, by omega⟩,
    ⟨address / 2 ^ 8 % 256, by omega⟩, ⟨address % 256, by omega⟩, by dsimp only; omega, ?_⟩
  have first : address / 16777216 % 256 = address / 16777216 := Nat.mod_eq_of_lt (by omega)
  have written : (text address).toList = joined '.'
      ([address / 2 ^ 24, address / 2 ^ 16 % 256, address / 2 ^ 8 % 256, address % 256].map fun b =>
        Nat.toDigits 10 b) := by
    simp [text, joined, Nat.shiftRight_eq_div_pow, first]
  rw [written, splitOn_joined ?_ (by simp)]
  · rfl
  · intro part among
    obtain ⟨b, -, rfl⟩ := List.mem_map.mp among
    exact fun point => by cases isDigit_decimal point

theorem ofParts_lt {earlier : List Nat} {last address : Nat} (few : earlier.length ≤ 3)
    (read : ofParts earlier last = some address) : address < 2 ^ 32 := by
  have whole : ∀ {parts : List Nat} {n : Nat}, (∀ p ∈ parts, p ≤ 255) →
      parts.foldl (fun n p => n * 256 + p) n < (n + 1) * 256 ^ parts.length := by
    intro parts
    induction parts with
    | nil => simp
    | cons p rest ih =>
        intro n bytes
        obtain ⟨here, later⟩ := List.forall_mem_cons.mp bytes
        rw [List.foldl_cons, List.length_cons, pow_succ', ← Nat.mul_assoc]
        exact (ih later).trans_le (Nat.mul_le_mul_right _ (by omega))
  simp only [ofParts] at read
  split at read
  · next fits =>
      cases read
      simp only [Bool.and_eq_true, List.all_eq_true, decide_eq_true_eq, Nat.shiftLeft_eq,
        Nat.one_mul] at fits
      have front := whole fits.1 (n := 0)
      rw [Nat.zero_add, Nat.one_mul] at front
      rw [Nat.shiftLeft_eq]
      have room : 2 ^ 32 = 256 ^ earlier.length * 2 ^ (8 * (4 - earlier.length)) := by
        rw [show 256 = 2 ^ 8 from rfl, ← pow_mul, ← pow_add]
        congr 1
        omega
      rw [room]
      calc _ < _ * 2 ^ (8 * (4 - earlier.length)) + 2 ^ (8 * (4 - earlier.length)) :=
            Nat.add_lt_add_left fits.2 _
        _ = (_ + 1) * 2 ^ (8 * (4 - earlier.length)) := (Nat.succ_mul ..).symm
        _ ≤ _ := Nat.mul_le_mul_right _ front
  · cases read

theorem parse_lt {labels : List (List Char)} {address : Nat} (read : parse labels = some address) :
    address < 2 ^ 32 := by
  simp only [parse] at read
  generalize (if labels.getLast? = some [] then labels.dropLast else labels) = labels at read
  split at read
  · cases read
  · next few =>
      simp only [Option.bind_eq_bind, Option.bind_eq_some_iff] at read
      obtain ⟨parts, each, last, -, whole⟩ := read
      have count := (mapM_eq_some_iff.mp each).length_eq
      exact ofParts_lt (by rw [List.length_dropLast]; omega) whole

section Text

variable {address : Nat} (small : address < 2 ^ 32)
include small

theorem isNumeric_text : isNumeric (splitOn '.' (text address).toList) = true := by
  obtain ⟨a, b, c, d, -, labels⟩ := exists_bytes small
  have some : Nat.toDigits 10 d.val ≠ [] := Nat.toDigits_ne_nil
  have digits : (Nat.toDigits 10 d.val).all Char.isDigit = true :=
    List.all_eq_true.mpr fun _ member => isDigit_decimal member
  rw [labels]
  simp [isNumeric, isNumeric.numeric, some, digits]

/-- Four decimal numbers are read as the address that they are written for. -/
theorem parse_text : parse (splitOn '.' (text address).toList) = some address := by
  obtain ⟨a, b, c, d, rfl, labels⟩ := exists_bytes small
  have some : Nat.toDigits 10 d.val ≠ [] := Nat.toDigits_ne_nil
  have whole : ofParts [a.val, b.val, c.val] d =
      .some (((a.val * 256 + b) * 256 + c) * 256 + d) := by
    simp [ofParts, Nat.shiftLeft_eq]
    omega
  rw [labels, parse]
  simp [part_decimal, whole, some]

end Text

end Ipv4

namespace Ipv6

/-- Eight groups of two bytes. -/
structure Proper (groups : List Nat) : Prop where
  eight : groups.length = 8
  small : ∀ g ∈ groups, g < 2 ^ 16

section Reading

theorem group_lt {text : List Char} {g : Nat} (read : group text = some g) : g < 2 ^ 16 := by
  simp only [group] at read
  split at read
  · cases read
  · next few =>
      have four : text.length ≤ 4 := by simp at few; omega
      calc g < 16 ^ text.length := numberIn_lt read
        _ ≤ 16 ^ 4 := Nat.pow_le_pow_right (by decide) four

theorem quadByte_le {text : List Char} {b : Nat} (read : quadByte text = some b) : b ≤ 255 := by
  simp only [quadByte] at read
  split at read
  · cases read
  · cases read
  · exact of_decide_eq_true (Option.filter_eq_some_iff.mp read).2

theorem quad_lt {text : List Char} {pair : List Nat} (read : quad text = some pair) :
    ∀ g ∈ pair, g < 2 ^ 16 := by
  simp only [quad] at read
  split at read
  · next a b c d each =>
      cases read
      have bytes := mapM_eq_some_iff.mp each
      have small : ∀ b' ∈ [a, b, c, d], b' ≤ 255 := by
        intro b' among
        obtain ⟨i, within, rfl⟩ := List.getElem_of_mem among
        exact quadByte_le (List.Forall₂.get bytes (by rw [bytes.length_eq]; exact within) within)
      obtain ⟨first, second, third, fourth, -⟩ := by
        simpa only [List.forall_mem_cons] using small
      refine List.forall_mem_cons.mpr ⟨?_, List.forall_mem_singleton.mpr ?_⟩ <;> omega
  · cases read

theorem mapM_group_lt {texts : List (List Char)} {read : List Nat}
    (each : texts.mapM group = some read) : ∀ g ∈ read, g < 2 ^ 16 := by
  have pairs := mapM_eq_some_iff.mp each
  clear each
  induction pairs with
  | nil => nofun
  | cons here _ ih => exact List.forall_mem_cons.mpr ⟨group_lt here, ih⟩

theorem groups_lt {texts : List (List Char)} {read : List Nat} (all : groups texts = some read) :
    ∀ g ∈ read, g < 2 ^ 16 := by
  fun_induction groups texts generalizing read with
  | case1 =>
      cases all
      nofun
  | case2 last dotted => exact quad_lt all
  | case3 last plain =>
      obtain ⟨g, one, rfl⟩ := Option.map_eq_some_iff.mp all
      exact List.forall_mem_singleton.mpr (group_lt one)
  | case4 first rest more ih =>
      simp only [Option.bind_eq_bind, Option.bind_eq_some_iff] at all
      obtain ⟨g, here, others, later, same⟩ := all
      cases same
      exact List.forall_mem_cons.mpr ⟨group_lt here, ih later⟩

/-- An address that is read has eight groups of two bytes. -/
theorem proper_of_parse {text : List Char} {read : List Nat} (parsed : parse text = some read) :
    Proper read := by
  simp only [parse] at parsed
  split at parsed
  · obtain ⟨all, count⟩ := Option.filter_eq_some_iff.mp parsed
    exact ⟨of_decide_eq_true count, groups_lt all⟩
  · next before after _ =>
      simp only [Option.bind_eq_bind, Option.bind_eq_some_iff] at parsed
      obtain ⟨front, led, back, trailed, parsed⟩ := parsed
      have smallFront : ∀ g ∈ front, g < 2 ^ 16 := by
        rw [leading] at led
        split at led
        · cases led
          nofun
        · exact mapM_group_lt led
      have smallBack : ∀ g ∈ back, g < 2 ^ 16 := by
        rw [trailing] at trailed
        split at trailed
        · cases trailed
          nofun
        · exact groups_lt trailed
      split at parsed
      · next room =>
          cases parsed
          constructor
          · simp only [List.length_append, List.length_replicate]
            omega
          · intro g member
            rcases List.mem_append.mp member with member | member
            · rcases List.mem_append.mp member with member | member
              · exact smallFront g member
              · rw [List.eq_of_mem_replicate member]
                decide
            · exact smallBack g member
      · cases parsed

end Reading

section Zeros

variable {groups : List Nat}

/-- The longer one of two runs, the first where both are as long. -/
def longer (best run : Nat × Nat) : Nat × Nat :=
  if run.2 > best.2 then run else best

theorem foldl_longer (runs : List (Nat × Nat)) (best : Nat × Nat) :
    runs.foldl longer best = best ∨ runs.foldl longer best ∈ runs := by
  induction runs generalizing best with
  | nil => exact .inl rfl
  | cons run rest ih =>
      rw [List.foldl_cons, longer]
      split
      · rcases ih run with same | later
        · exact .inr (List.mem_cons.mpr (.inl same))
        · exact .inr (List.mem_cons_of_mem run later)
      · rcases ih best with same | later
        · exact .inl same
        · exact .inr (List.mem_cons_of_mem run later)

/-- The run of zeros from a place. -/
def zerosFrom (groups : List Nat) (i : Nat) : Nat × Nat :=
  (i, ((groups.drop i).takeWhile (· == 0)).length)

theorem longestZeros_eq (groups : List Nat) :
    longestZeros groups =
      let best := ((List.range groups.length).map (zerosFrom groups)).foldl longer (0, 0)
      if best.2 ≥ 2 then some best else none :=
  rfl

/-- A run of zeros that is left out is there. -/
theorem longestZeros_spec {start length : Nat}
    (found : longestZeros groups = some (start, length)) :
    2 ≤ length ∧
      groups = groups.take start ++ (List.replicate length 0 ++ groups.drop (start + length)) := by
  rw [longestZeros_eq] at found
  dsimp only at found
  split at found
  · next long =>
      have best := Option.some.inj found
      rw [best] at long
      rcases foldl_longer ((List.range groups.length).map (zerosFrom groups)) (0, 0) with none | run
      · cases none.symm.trans best
        exact absurd long (by decide)
      · rw [best] at run
        obtain ⟨i, -, same⟩ := List.mem_map.mp run
        cases same
        have zeros : (groups.drop start).takeWhile (· == 0) =
            List.replicate ((groups.drop start).takeWhile (· == 0)).length 0 :=
          List.eq_replicate_of_mem fun g member => by simpa using List.mem_takeWhile_imp member
        have rest : (groups.drop start).dropWhile (· == 0) =
            groups.drop (start + ((groups.drop start).takeWhile (· == 0)).length) := by
          rw [← List.drop_drop, drop_takeWhile]
        refine ⟨long, ?_⟩
        rw [← zeros, ← rest, List.takeWhile_append_dropWhile, List.take_append_drop]
  · cases found

end Zeros

section Writing

/-- Groups as they are written. -/
def texts (groups : List Nat) : List (List Char) :=
  groups.map (Nat.toDigits 16)

theorem toList_joined (groups : List Nat) :
    (":".intercalate (groups.map hexText)).toList = joined ':' (texts groups) := by
  simp [hexText, texts, joined, Function.comp_def]

/-- No bracket is written inside the brackets. -/
theorem unclosed_text (groups : List Nat) : ']' ∉ (text groups).toList := by
  have digit : ∀ k : Fin 16, ']' ≠ Nat.digitChar k := by decide
  have joined : ∀ gs : List Nat, ']' ∉ (":".intercalate (gs.map hexText)).toList := by
    intro gs member
    rcases mem_intercalate member with colon | ⟨name, among, inside⟩
    · cases List.mem_singleton.mp colon
    · obtain ⟨n, -, rfl⟩ := List.mem_map.mp among
      rw [hexText, String.toList_ofList] at inside
      obtain ⟨k, small, same⟩ := mem_toDigits (by decide) inside
      exact digit ⟨k, small⟩ same
  rw [text]
  split
  · exact joined groups
  · simp only [String.toList_append, List.mem_append, not_or]
    exact ⟨⟨joined _, by decide⟩, joined _⟩

theorem hex_plain {g : Nat} : ':' ∉ Nat.toDigits 16 g ∧ '.' ∉ Nat.toDigits 16 g := by
  have digit : ∀ k : Fin 16, ':' ≠ Nat.digitChar k ∧ '.' ≠ Nat.digitChar k := by decide
  constructor
  all_goals
    intro member
    obtain ⟨k, small, same⟩ := mem_toDigits (by decide) member
  · exact (digit ⟨k, small⟩).1 same
  · exact (digit ⟨k, small⟩).2 same

theorem not_mem_texts {groups : List Nat} : ∀ t ∈ texts groups, ':' ∉ t := by
  intro t among
  obtain ⟨g, -, rfl⟩ := List.mem_map.mp among
  exact hex_plain.1

/-- Groups begin with a digit. -/
theorem joined_texts (g : Nat) (rest : List Nat) :
    ∃ c more, joined ':' (texts (g :: rest)) = c :: more ∧ c ≠ ':' := by
  cases digits : Nat.toDigits 16 g with
  | nil => exact absurd digits Nat.toDigits_ne_nil
  | cons c others =>
      have plain : ':' ∉ Nat.toDigits 16 g := hex_plain.1
      rw [digits] at plain
      obtain ⟨other, -⟩ := List.ne_and_not_mem_of_not_mem_cons plain
      cases rest with
      | nil => exact ⟨c, others, by simp [joined, texts, digits], other.symm⟩
      | cons h more =>
          refine ⟨c, others ++ ':' :: joined ':' (texts (h :: more)), ?_, other.symm⟩
          rw [texts, List.map_cons, List.map_cons, joined_cons, digits, List.cons_append]
          rfl

theorem isEmpty_joined (g : Nat) (rest : List Nat) :
    (joined ':' (texts (g :: rest))).isEmpty = false := by
  obtain ⟨c, more, whole, -⟩ := joined_texts g rest
  rw [whole, List.isEmpty_cons]

theorem splitOn_texts {g : Nat} {rest : List Nat} :
    splitOn ':' (joined ':' (texts (g :: rest))) = texts (g :: rest) :=
  splitOn_joined not_mem_texts (List.cons_ne_nil _ _)

theorem group_hex {g : Nat} (small : g < 2 ^ 16) : group (Nat.toDigits 16 g) = some g := by
  have some : Nat.toDigits 16 g ≠ [] := Nat.toDigits_ne_nil
  have few : (Nat.toDigits 16 g).length ≤ 4 :=
    (Nat.length_toDigits_le_iff (by decide) (by decide)).mpr small
  rw [group, if_neg (by simp [some, few]), numberIn_toDigits (by decide) (by decide)]

section Groups

variable {gs : List Nat} (small : ∀ g ∈ gs, g < 2 ^ 16)
include small

theorem mapM_texts : (texts gs).mapM group = some gs := by
  rw [mapM_eq_some_iff, texts, List.forall₂_map_left_iff, List.forall₂_same]
  exact fun g member => group_hex (small g member)

theorem groups_texts : groups (texts gs) = some gs := by
  induction gs with
  | nil => rfl
  | cons g rest ih =>
      obtain ⟨here, later⟩ := List.forall_mem_cons.mp small
      have one := group_hex here
      cases rest with
      | nil =>
          have plain : '.' ∉ Nat.toDigits 16 g := hex_plain.2
          simp [texts, groups, plain, one]
      | cons h others =>
          have all := ih later
          simp only [texts, List.map_cons] at all ⊢
          simp [groups, one, all]

theorem leading_joined : leading (joined ':' (texts gs)) = some gs := by
  cases gs with
  | nil => rfl
  | cons g rest =>
      rw [leading, isEmpty_joined, if_neg Bool.false_ne_true, splitOn_texts,
        mapM_texts small]

theorem trailing_joined : trailing (joined ':' (texts gs)) = some gs := by
  cases gs with
  | nil => rfl
  | cons g rest =>
      rw [trailing, isEmpty_joined, if_neg Bool.false_ne_true, splitOn_texts,
        groups_texts small]

end Groups

theorem cutDouble_plain {text : List Char} (absent : ':' ∉ text) (rest : List Char) :
    cutDouble (text ++ rest) = (text ++ (cutDouble rest).1, (cutDouble rest).2) := by
  induction text with
  | nil => rfl
  | cons c more ih =>
      obtain ⟨other, later⟩ := List.ne_and_not_mem_of_not_mem_cons absent
      rw [List.cons_append, cutDouble, ih later, List.cons_append]
      rintro after rfl
      exact absurd rfl other

theorem cutDouble_colon {rest : List Char} (single : rest.head? ≠ some ':') :
    cutDouble (':' :: rest) = (':' :: (cutDouble rest).1, (cutDouble rest).2) := by
  rw [cutDouble]
  rintro after - rfl
  exact single rfl

/-- No two colons stand together between groups. -/
theorem cutDouble_joined (groups : List Nat) (rest : List Char) :
    cutDouble (joined ':' (texts groups) ++ rest) =
      (joined ':' (texts groups) ++ (cutDouble rest).1, (cutDouble rest).2) := by
  induction groups with
  | nil => rfl
  | cons g others ih =>
      cases others with
      | nil =>
          have one : joined ':' (texts [g]) = Nat.toDigits 16 g := by simp [joined, texts]
          rw [one, cutDouble_plain hex_plain.1]
      | cons h more =>
          have whole : joined ':' (texts (g :: h :: more)) =
              Nat.toDigits 16 g ++ ':' :: joined ':' (texts (h :: more)) :=
            joined_cons ':' _ _ _
          have single : (joined ':' (texts (h :: more)) ++ rest).head? ≠ some ':' := by
            obtain ⟨c, later, front, other⟩ := joined_texts h more
            simpa [front] using other
          rw [whole, List.append_assoc, cutDouble_plain hex_plain.1, List.cons_append,
            cutDouble_colon single, ih]
          simp

/-- What is written for an address is read as the address. -/
theorem parse_text {groups : List Nat} (proper : Proper groups) :
    parse (text groups).toList = some groups := by
  rw [text]
  split
  · have written := cutDouble_joined groups []
    rw [List.append_nil] at written
    have some : texts groups ≠ [] := by
      intro empty
      have eight := proper.eight
      rw [List.map_eq_nil_iff.mp empty] at eight
      cases eight
    rw [parse, toList_joined, written]
    simp [cutDouble, splitOn_joined not_mem_texts some, groups_texts proper.small, proper.eight]
  · next start length found =>
      obtain ⟨two, whole⟩ := longestZeros_spec found
      have smallFront : ∀ g ∈ groups.take start, g < 2 ^ 16 := fun g member =>
        proper.small g (List.mem_of_mem_take member)
      have smallBack : ∀ g ∈ groups.drop (start + length), g < 2 ^ 16 := fun g member =>
        proper.small g (List.mem_of_mem_drop member)
      have count := congrArg List.length whole
      simp only [List.length_append, List.length_replicate, proper.eight] at count
      have zeros : 8 - (groups.take start).length - (groups.drop (start + length)).length =
          length := by omega
      have room : (groups.take start).length + (groups.drop (start + length)).length ≤ 7 := by omega
      have written := cutDouble_joined (groups.take start)
        (':' :: ':' :: joined ':' (texts (groups.drop (start + length))))
      have text : (":".intercalate ((groups.take start).map hexText) ++ "::" ++
          ":".intercalate ((groups.drop (start + length)).map hexText)).toList =
          joined ':' (texts (groups.take start)) ++
            ':' :: ':' :: joined ':' (texts (groups.drop (start + length))) := by
        rw [String.toList_append, String.toList_append, toList_joined, toList_joined,
          List.append_assoc]
        rfl
      rw [parse, text, written]
      simp only [cutDouble, List.append_nil, leading_joined smallFront, trailing_joined smallBack,
        Option.bind_eq_bind, Option.bind_some, if_pos room, zeros, List.append_assoc]
      rw [← whole]

end Writing

end Ipv6

end Bearer.Url
