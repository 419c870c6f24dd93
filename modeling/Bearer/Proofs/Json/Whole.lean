import Mathlib.Tactic.SplitIfs
import Bearer.Json.Scan

/-!
Values that were read to their end. A bracket is closed only around values that are finished, so
whatever is inside a value without a fault is without a fault too, and a reader can pass over it.
-/
namespace Bearer.Json

/-- A value that is finished, with everything in it. -/
inductive Tree.Whole : Tree → Prop where
  | null : Whole .null
  | bool (value : Bool) : Whole (.bool value)
  | number (value : Numeral) : Whole (.number value)
  | string (value : Quoted) (ended : value.fault = none) : Whole (.string value)
  | array (items : List Tree) (inside : ∀ item ∈ items, Whole item) : Whole (.array items none)
  | object (members : List (Quoted × Tree)) (inside : ∀ member ∈ members, Whole member.2) :
      Whole (.object members none)

theorem Tree.Whole.skipFault {tree : Tree} (whole : tree.Whole) : tree.skipFault = none := by
  cases whole with
  | string value ended => exact ended
  | null | bool _ | number _ | array _ _ | object _ _ => rfl

/-- A tree that is whole unless a fault stands at its end. -/
def Tree.Told (tree : Tree) : Prop :=
  tree.skipFault = none → tree.Whole

def AllWhole (items : List Tree) : Prop :=
  ∀ item ∈ items, item.Whole

def MembersWhole (members : List (Quoted × Tree)) : Prop :=
  ∀ member ∈ members, member.2.Whole

def Frame.Sound : Frame → Prop
  | .array items => AllWhole items
  | .object members _ => MembersWhole members

def Phase.Sound : Phase → Prop
  | .value _ | .number _ | .text _ => True
  | .word _ meant => meant.Whole
  | .items before => AllWhole before
  | .key before _ | .keyText before _ | .colon before _ | .members before => MembersWhole before

/-- All that a scan has put aside is whole, and so is what it has finished without a fault. -/
def Scan.Sound : Scan → Prop
  | .reading phase frames => phase.Sound ∧ ∀ frame ∈ frames, frame.Sound
  | .done tree _ => tree.Told

section Steps

variable {tree : Tree} {frames : List Frame} {items : List Tree}
  {members : List (Quoted × Tree)}

theorem allWhole_nil : AllWhole [] :=
  fun _ none => nomatch none

theorem membersWhole_nil : MembersWhole [] :=
  fun _ none => nomatch none

theorem told_settle (fault : Category) (frames : List Frame) (told : tree.Told) :
    (Frame.settle fault frames tree).Told := by
  induction frames generalizing tree with
  | nil => exact told
  | cons frame rest ih =>
      cases frame with
      | array items => exact ih nofun
      | object members key => exact ih nofun

theorem sound_break (whenRead whenSkipped : Category) (frames : List Frame) :
    (Scan.break whenRead whenSkipped frames).Sound :=
  told_settle whenSkipped frames nofun

theorem sound_lack (fault : Category) (frames : List Frame) : (Scan.lack fault frames).Sound :=
  told_settle fault frames nofun

theorem sound_haltItems (fault : Category) (frames : List Frame) (items : List Tree) :
    (Scan.halt fault frames (arrayOf items)).Sound :=
  told_settle fault frames nofun

theorem sound_haltMembers (fault : Category) (frames : List Frame)
    (members : List (Quoted × Tree)) : (Scan.halt fault frames (objectOf members)).Sound :=
  told_settle fault frames nofun

theorem sound_deliver (whole : tree.Whole) (below : ∀ frame ∈ frames, frame.Sound) :
    (Scan.deliver tree frames).Sound := by
  cases frames with
  | nil => exact fun _ => whole
  | cons frame rest =>
      have inner := below frame List.mem_cons_self
      have outer : ∀ frame ∈ rest, frame.Sound := fun other member =>
        below other (List.mem_cons_of_mem _ member)
      cases frame with
      | array items => exact ⟨List.forall_mem_cons.mpr ⟨whole, inner⟩, outer⟩
      | object members key => exact ⟨List.forall_mem_cons.mpr ⟨whole, inner⟩, outer⟩

theorem whole_arrayOf (inside : AllWhole items) : (arrayOf items none).Whole :=
  .array _ fun item member => inside item (List.mem_reverse.mp member)

theorem whole_objectOf (inside : MembersWhole members) : (objectOf members none).Whole :=
  .object _ fun item member => inside item (List.mem_reverse.mp member)

theorem sound_deliverText (q : Quoted) (below : ∀ frame ∈ frames, frame.Sound) :
    (Scan.deliverText q frames).Sound := by
  simp only [Scan.deliverText]
  cases ended : q.fault with
  | none => exact sound_deliver (.string q ended) below
  | some fault => exact told_settle fault frames fun none => nomatch ended.symm.trans none

theorem sound_betweenItems (inside : AllWhole items) (below : ∀ frame ∈ frames, frame.Sound)
    (b : UInt8) : (Scan.betweenItems items frames b).Sound := by
  simp only [Scan.betweenItems]
  split
  · exact ⟨inside, below⟩
  · split
    · exact ⟨trivial, List.forall_mem_cons.mpr ⟨inside, below⟩⟩
    · split
      · exact sound_deliver (whole_arrayOf inside) below
      · exact sound_haltItems _ _ _

theorem sound_betweenMembers (inside : MembersWhole members)
    (below : ∀ frame ∈ frames, frame.Sound) (b : UInt8) :
    (Scan.betweenMembers members frames b).Sound := by
  simp only [Scan.betweenMembers]
  split
  · exact ⟨inside, below⟩
  · split
    · exact ⟨inside, below⟩
    · split
      · exact sound_deliver (whole_objectOf inside) below
      · exact sound_haltMembers _ _ _

theorem sound_atValue (first : Bool) (below : ∀ frame ∈ frames, frame.Sound) (b : UInt8) :
    (Scan.atValue first frames b).Sound := by
  simp only [Scan.atValue]
  split_ifs
  · exact ⟨trivial, below⟩
  · exact ⟨trivial, below⟩
  · exact ⟨trivial, List.forall_mem_cons.mpr ⟨allWhole_nil, below⟩⟩
  · exact ⟨membersWhole_nil, below⟩
  · exact ⟨.null, below⟩
  · exact ⟨.bool true, below⟩
  · exact ⟨.bool false, below⟩
  · exact ⟨trivial, below⟩
  · exact ⟨trivial, below⟩
  · split
    · have inner := List.forall_mem_cons.mp below
      exact sound_deliver (whole_arrayOf inner.1) inner.2
    · exact sound_break _ _ _
  · split
    · exact sound_lack _ _
    · exact sound_break _ _ _

theorem sound_after {scan : Scan} (sound : scan.Sound) (b : UInt8) : (scan.after b).Sound := by
  cases scan with
  | done tree clean => exact sound
  | reading phase frames =>
      cases phase with
      | items before => exact sound_betweenItems sound.1 sound.2 b
      | members before => exact sound_betweenMembers sound.1 sound.2 b
      | _ => exact sound

theorem sound_step {scan : Scan} (sound : scan.Sound) (b : UInt8) : (scan.step b).Sound := by
  cases scan with
  | done tree clean => exact sound
  | reading phase frames =>
      obtain ⟨here, below⟩ := sound
      cases phase with
      | value first => exact sound_atValue first below b
      | word left meant =>
          cases left with
          | nil => exact sound_after (sound_deliver here below) b
          | cons c others =>
              cases others with
              | nil =>
                  simp only [Scan.step]
                  split
                  · exact sound_deliver here below
                  · exact sound_break _ _ _
              | cons d others =>
                  simp only [Scan.step]
                  split
                  · exact ⟨here, below⟩
                  · exact sound_break _ _ _
      | number n =>
          simp only [Scan.step]
          split
          · exact ⟨trivial, below⟩
          · exact sound_after (sound_deliver (.number _) below) b
          · exact sound_break _ _ _
      | text q =>
          simp only [Scan.step]
          split
          · exact ⟨trivial, below⟩
          · exact sound_deliverText _ below
      | items before => exact sound_betweenItems here below b
      | members before => exact sound_betweenMembers here below b
      | key before first =>
          simp only [Scan.step]
          split
          · exact ⟨here, below⟩
          · split
            · exact ⟨here, below⟩
            · split
              · exact sound_deliver (whole_objectOf here) below
              · exact sound_haltMembers _ _ _
      | keyText before q =>
          simp only [Scan.step]
          split
          · exact ⟨here, below⟩
          · split
            · exact ⟨here, below⟩
            · exact sound_haltMembers _ _ _
      | colon before key =>
          simp only [Scan.step]
          split
          · exact ⟨here, below⟩
          · split
            · exact ⟨trivial, List.forall_mem_cons.mpr ⟨here, below⟩⟩
            · exact sound_lack _ _

theorem sound_atEnd {scan : Scan} (sound : scan.Sound) : scan.atEnd.Sound := by
  cases scan with
  | done tree clean => exact sound
  | reading phase frames =>
      obtain ⟨here, below⟩ := sound
      cases phase with
      | value first =>
          simp only [Scan.atEnd]
          split
          · exact sound_lack _ _
          · exact sound_break _ _ _
      | word left meant => exact sound_break _ _ _
      | number n =>
          simp only [Scan.atEnd]
          split
          · exact sound_deliver (.number _) below
          · exact sound_break _ _ _
      | text q =>
          simp only [Scan.atEnd]
          exact sound_deliverText _ below
      | items before => exact sound_haltItems _ _ _
      | key before first => exact sound_haltMembers _ _ _
      | keyText before q => exact sound_haltMembers _ _ _
      | colon before key => exact sound_lack _ _
      | members before => exact sound_haltMembers _ _ _

theorem told_finish {scan : Scan} (sound : scan.Sound) : scan.finish.1.Told := by
  have ended := sound_atEnd sound
  simp only [Scan.finish]
  split
  · next found =>
      rw [found] at ended
      exact ended
  · exact told_settle _ _ nofun
  · exact told_settle _ _ nofun
  · exact nofun

theorem sound_foldl {scan : Scan} (sound : scan.Sound) (bytes : List UInt8) :
    (bytes.foldl Scan.step scan).Sound := by
  induction bytes generalizing scan with
  | nil => exact sound
  | cons b rest ih => exact ih (sound_step sound b)

end Steps

/-- A text whose value is read to its end without a fault has no fault inside that value. -/
theorem Tree.whole_ofBytes {bytes : List UInt8} (ended : (Tree.ofBytes bytes).skipFault = none) :
    (Tree.ofBytes bytes).Whole :=
  have started : Scan.start.Sound := ⟨trivial, nofun⟩
  told_finish (sound_foldl started bytes) ended

theorem Tree.membersWhole_ofBytes {bytes : List UInt8} {members : List (Quoted × Tree)}
    (object : Tree.ofBytes bytes = .object members none) : MembersWhole members := by
  have ended : (Tree.ofBytes bytes).skipFault = none := by
    rw [object]
    rfl
  have whole := Tree.whole_ofBytes ended
  rw [object] at whole
  cases whole with
  | object _ inside => exact inside

end Bearer.Json
