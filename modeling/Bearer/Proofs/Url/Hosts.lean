import Mathlib
import Bearer.Proofs.Url.Addresses

/-!
Hosts written and read. A host that is read is written in visible characters that separate nothing
in a URL, and is read from what is written for it as itself.
-/
namespace Bearer.Url

/-- A character that belongs to a host wherever in a URL it stands. -/
structure HostChar (c : Char) : Prop where
  visible : 0x20 < c.toNat
  separates : c ∉ ['/', '\\', '?', '#', '@', '|']

instance (c : Char) : Decidable (HostChar c) :=
  decidable_of_iff (0x20 < c.toNat ∧ c ∉ ['/', '\\', '?', '#', '@', '|'])
    ⟨fun ⟨visible, separates⟩ => ⟨visible, separates⟩,
      fun ⟨visible, separates⟩ => ⟨visible, separates⟩⟩

/-- What is said of the characters by their numbers is said of each. -/
theorem ascii_of_all {p : Char → Prop} (all : ∀ n : Fin 128, p (Char.ofNat n)) {c : Char}
    (ascii : c.toNat < 0x80) : p c := by
  have same := all ⟨c.toNat, ascii⟩
  rwa [Char.ofNat_toNat] at same

theorem hostChar_of_address {c : Char} (member : c ∈ addressChars) : HostChar c := by
  have all : (addressChars.all fun c => HostChar c) = true := by decide
  exact of_decide_eq_true (List.all_eq_true.mp all c member)

section Names

/-- A name holds no separator, no colon and no bracket. -/
theorem NameChar.plain {c : Char} (name : NameChar c) : HostChar c ∧ c ≠ ':' ∧ c ≠ '[' := by
  have all : ∀ n : Fin 128, NameChar (Char.ofNat n) →
      HostChar (Char.ofNat n) ∧ Char.ofNat n ≠ ':' ∧ Char.ofNat n ≠ '[' := by
    decide +kernel
  exact ascii_of_all (p := fun c => NameChar c → HostChar c ∧ c ≠ ':' ∧ c ≠ '[') all name.ascii name

theorem percentDecode_eq {bytes : List UInt8} (absent : 0x25 ∉ bytes) :
    percentDecode bytes = bytes := by
  induction bytes with
  | nil => rfl
  | cons b rest ih =>
      obtain ⟨other, later⟩ := List.ne_and_not_mem_of_not_mem_cons absent
      rw [percentDecode_cons other.symm, ih later]

theorem percent_not_mem_bytes {name : List Char} (chars : ∀ c ∈ name, NameChar c) :
    (0x25 : UInt8) ∉ name.flatMap String.utf8EncodeChar := by
  have allowed := List.any_eq_false.mp (name_bytes_allowed chars)
  exact fun member => allowed 0x25 member (by decide)

theorem nameChar_of_ipv4 {address : Nat} {c : Char} (member : c ∈ (Ipv4.text address).toList) :
    NameChar c := by
  rcases mem_intercalate member with point | ⟨name, among, inside⟩
  · rw [List.mem_singleton.mp point]
    decide
  · have digit : ∀ k : Fin 10, NameChar (Nat.digitChar k) := by decide
    obtain ⟨shift, -, rfl⟩ := List.mem_map.mp among
    rw [Nat.toString_eq_ofList_toDigits, String.toList_ofList] at inside
    obtain ⟨k, small, rfl⟩ := mem_toDigits (by decide) inside
    exact digit ⟨k, small⟩

theorem ipv4_ne_nil {address : Nat} (small : address < 2 ^ 32) :
    (Ipv4.text address).toList ≠ [] := by
  intro empty
  have numeric := Ipv4.isNumeric_text small
  rw [empty] at numeric
  cases numeric

/-- An encoded label has a letter, and so the name has. -/
theorem mem_of_isEncodedLabel {name label : List Char} (among : label ∈ splitOn '.' name)
    (encoded : isEncodedLabel label = true) : 'x' ∈ name := by
  apply mem_of_mem_splitOn among
  obtain ⟨rest, rfl⟩ := List.isPrefixOf_iff_prefix.mp encoded
  simp

/-- An address is a plain name. -/
theorem isPlainName_ipv4 (address : Nat) :
    isPlainName ((Ipv4.text address).toList.flatMap String.utf8EncodeChar) = true := by
  have chars : ∀ c ∈ (Ipv4.text address).toList, NameChar c := fun c => nameChar_of_ipv4
  have letterless : ∀ label ∈ splitOn '.' (Ipv4.text address).toList,
      ¬isEncodedLabel label = true := by
    intro label among encoded
    have numeric : ∀ name, Host.ipv4 address ≠ .domain name := nofun
    have letter := mem_of_isEncodedLabel among encoded
    exact absurd (mem_address numeric letter) (by decide)
  rw [isPlainName, name_bytes_allowed chars, lowerName_bytes chars, List.any_eq_false.mpr letterless]
  rfl

variable [Idna]

theorem parse_unbracketed {text : List Char} (unbracketed : text.head? ≠ some '[') :
    Host.parse text =
      match Idna.toAscii (percentDecode (text.flatMap String.utf8EncodeChar)) with
      | some name => named name
      | none => .error .invalidDomain := by
  rw [Host.parse.eq_def]
  split
  · exact absurd rfl unbracketed
  · rfl

/-- A name that stands for itself is taken as it is. -/
theorem parse_name {name : List Char} (chars : ∀ c ∈ name, NameChar c)
    (own : Idna.toAscii (name.flatMap String.utf8EncodeChar) = some name) :
    Host.parse name = named name := by
  have unbracketed : name.head? ≠ some '[' := fun first =>
    (chars '[' (List.mem_of_head? first)).plain.2.2 rfl
  rw [parse_unbracketed unbracketed, percentDecode_eq (percent_not_mem_bytes chars), own]

theorem parse_ipv4 {address : Nat} (small : address < 2 ^ 32) :
    Host.parse (Ipv4.text address).toList = .ok (.ipv4 address) := by
  have chars : ∀ c ∈ (Ipv4.text address).toList, NameChar c := fun c => nameChar_of_ipv4
  have own := Idna.plain (isPlainName_ipv4 address)
  rw [lowerName_bytes chars] at own
  rw [parse_name chars own, named, if_neg (by simpa using ipv4_ne_nil small),
    if_pos (Ipv4.isNumeric_text small), Ipv4.parse_text small]

/-- A name that has been put into ASCII is read as what it names, and that is read from what is
written for it. -/
theorem parse_named {bytes : List UInt8} {name : List Char} {host : Host}
    (ascii : Idna.toAscii bytes = some name) (read : named name = .ok host) :
    (∀ c ∈ host.text.toList, NameChar c) ∧ Host.parse host.text.toList = .ok host := by
  have chars := Idna.written ascii
  have whole := read
  simp only [named] at read
  split at read
  · cases read
  · split at read
    · split at read
      · next address found =>
          cases read
          exact ⟨fun c => nameChar_of_ipv4, parse_ipv4 (Ipv4.parse_lt found)⟩
      · cases read
    · cases read
      rw [Host.text, String.toList_ofList]
      exact ⟨chars, (parse_name chars (Idna.again ascii)).trans whole⟩

end Names

section OpaqueNames

/-- A character of a name that is read in any other scheme. -/
structure OpaqueChar (c : Char) : Prop where
  ascii : c.toNat < 0x80
  kept : isControl c.toNat.toUInt8 = false
  allowed : forbiddenInOpaqueHost c = false

instance (c : Char) : Decidable (OpaqueChar c) :=
  decidable_of_iff
    (c.toNat < 0x80 ∧ isControl c.toNat.toUInt8 = false ∧ forbiddenInOpaqueHost c = false)
    ⟨fun ⟨ascii, kept, allowed⟩ => ⟨ascii, kept, allowed⟩,
      fun ⟨ascii, kept, allowed⟩ => ⟨ascii, kept, allowed⟩⟩

theorem OpaqueChar.plain {c : Char} (name : OpaqueChar c) : HostChar c ∧ c ≠ ':' ∧ c ≠ '[' := by
  have all : ∀ n : Fin 128, OpaqueChar (Char.ofNat n) →
      HostChar (Char.ofNat n) ∧ Char.ofNat n ≠ ':' ∧ Char.ofNat n ≠ '[' := by
    decide +kernel
  exact ascii_of_all (p := fun c => OpaqueChar c → HostChar c ∧ c ≠ ':' ∧ c ≠ '[') all name.ascii
    name

theorem opaqueChar_of_encode {text : List Char} (allowed : text.any forbiddenInOpaqueHost = false)
    {c : Char} (written : c ∈ encode isControl text) : OpaqueChar c := by
  rcases mem_encode written with escape | ⟨byte, kept, inText⟩
  · have all : (escapes.all fun c => OpaqueChar c) = true := by decide
    exact of_decide_eq_true (List.all_eq_true.mp all c escape)
  · have ascii : c.toNat < 0x80 := by
      have above : ∀ n : Fin 256, isControl n.val.toUInt8 = false → n.val < 0x80 := by
        decide +kernel
      exact above ⟨c.toNat, byte⟩ kept
    rw [List.any_eq_false] at allowed
    exact ⟨ascii, kept, by simpa using allowed c (inText ascii)⟩

/-- A name of such characters is taken as it is. -/
theorem parse_opaqueName {name : List Char} (chars : ∀ c ∈ name, OpaqueChar c) :
    Host.parseOpaque name = .ok (.domain (String.ofList name)) := by
  have allowed : name.any forbiddenInOpaqueHost = false := by
    rw [List.any_eq_false]
    intro c member
    rw [(chars c member).allowed]
    exact Bool.false_ne_true
  have kept : encode isControl name = name :=
    encode_kept (fun c member => (chars c member).ascii) fun c member => (chars c member).kept
  rw [Host.parseOpaque.eq_def]
  split
  · exact absurd rfl (chars '[' List.mem_cons_self).plain.2.2
  · rw [allowed, if_neg Bool.false_ne_true, kept]

end OpaqueNames

section Brackets

theorem toList_ipv6 (groups : List Nat) :
    (Host.ipv6 groups).text.toList = '[' :: ((Ipv6.text groups).toList ++ [']']) := by
  rw [Host.text, String.toList_append, String.toList_append]
  rfl

/-- An address in brackets is read, and read again from what is written for it. -/
theorem bracketed_text {text : List Char} {host : Host} (read : Host.bracketed text = .ok host) :
    ∃ groups, host = .ipv6 groups ∧
      Host.bracketed ((Ipv6.text groups).toList ++ [']']) = .ok host := by
  simp only [Host.bracketed] at read
  split at read
  · split at read
    · next groups found =>
        cases read
        refine ⟨groups, rfl, ?_⟩
        rw [Host.bracketed, if_pos (by simp), List.dropLast_concat,
          Ipv6.parse_text (Ipv6.proper_of_parse found)]
    · cases read
  · cases read

end Brackets

/-- What is written for a host: visible signs only, which separate nothing, and no colon outside the
brackets of an address. -/
structure HostText (host : Host) : Prop where
  chars : ∀ c ∈ host.text.toList, HostChar c
  closed : (∃ groups, host = .ipv6 groups) ∨
    ':' ∉ host.text.toList ∧ '[' ∉ host.text.toList

theorem hostText_ipv6 (groups : List Nat) : HostText (.ipv6 groups) where
  chars := fun _ member => hostChar_of_address (mem_address (fun _ same => by cases same) member)
  closed := .inl ⟨groups, rfl⟩

/-- A host of a special scheme is read from what is written for it. -/
theorem parse_text [Idna] {text : List Char} {host : Host} (read : Host.parse text = .ok host) :
    HostText host ∧ Host.parse host.text.toList = .ok host := by
  by_cases opened : text.head? = some '['
  · obtain ⟨rest, rfl⟩ := List.head?_eq_some_iff.mp opened
    obtain ⟨groups, rfl, again⟩ := bracketed_text read
    refine ⟨hostText_ipv6 groups, ?_⟩
    rw [toList_ipv6]
    exact again
  · rw [parse_unbracketed opened] at read
    split at read
    · next name ascii =>
        obtain ⟨own, again⟩ := parse_named ascii read
        exact ⟨⟨fun c member => (own c member).plain.1,
          .inr ⟨fun member => (own _ member).plain.2.1 rfl,
            fun member => (own _ member).plain.2.2 rfl⟩⟩, again⟩
    · cases read

/-- So is a host of any other scheme. -/
theorem parseOpaque_text {text : List Char} {host : Host}
    (read : Host.parseOpaque text = .ok host) :
    HostText host ∧ Host.parseOpaque host.text.toList = .ok host := by
  rw [Host.parseOpaque.eq_def] at read
  split at read
  · obtain ⟨groups, rfl, again⟩ := bracketed_text read
    refine ⟨hostText_ipv6 groups, ?_⟩
    rw [toList_ipv6]
    exact again
  · split at read
    · cases read
    · next allowed =>
        cases read
        have own : ∀ c ∈ encode isControl text, OpaqueChar c := fun c written =>
          opaqueChar_of_encode (by simpa using allowed) written
        have plain : ∀ c ∈ (Host.domain (String.ofList (encode isControl text))).text.toList,
            HostChar c ∧ c ≠ ':' ∧ c ≠ '[' := by
          rw [Host.text, String.toList_ofList]
          exact fun c member => (own c member).plain
        refine ⟨⟨fun c member => (plain c member).1,
          .inr ⟨fun member => (plain _ member).2.1 rfl, fun member => (plain _ member).2.2 rfl⟩⟩,
          ?_⟩
        rw [Host.text, String.toList_ofList]
        exact parse_opaqueName own

end Bearer.Url
