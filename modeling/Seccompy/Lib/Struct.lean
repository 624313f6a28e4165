import Seccompy.Lib.Word

/-!
# Structures in memory

The layout of a C structure: each member stands at the next offset its alignment allows, and
the size is rounded up so that an array of the structure keeps every member aligned.
`place` lays the bytes of the members out, with zeros between them; reading the members back
gives what was placed (`members_place`), and without padding every string of the right length
is the image of its members (`place_members`).
-/

namespace Seccompy.Lib

/-- A member: its size and its alignment. -/
structure Member where
  size : Nat
  align : Nat
  aligned : 0 < align

/-- The least multiple of `a` that is not below `n`. -/
def roundUp (a n : Nat) : Nat := (n + a - 1) / a * a

theorem le_roundUp {a : Nat} (positive : 0 < a) (n : Nat) : n ≤ roundUp a n := by
  have quotient := Nat.div_add_mod (n + a - 1) a
  have remainder := Nat.mod_lt (n + a - 1) positive
  unfold roundUp
  rw [Nat.mul_comm]
  omega

namespace Member

/-- Where the members stand when the first byte free is `start`. -/
def offsetsFrom (start : Nat) : List Member → List Nat
  | [] => []
  | m :: ms => roundUp m.align start :: offsetsFrom (roundUp m.align start + m.size) ms

/-- The first byte free behind the members. -/
def endFrom (start : Nat) : List Member → Nat
  | [] => start
  | m :: ms => endFrom (roundUp m.align start + m.size) ms

def structAlign (ms : List Member) : Nat := (ms.map align).foldr max 1

/-- `sizeof`. -/
def structSize (ms : List Member) : Nat := roundUp (structAlign ms) (endFrom 0 ms)

/-- A structure as a member of another one. -/
def struct (ms : List Member) : Member where
  size := structSize ms
  align := structAlign ms
  aligned := by
    unfold structAlign
    induction ms.map align with
    | nil => exact Nat.one_pos
    | cons a rest ih => exact lt_max_of_lt_right ih

/-- `member * n`. -/
def array (m : Member) (n : Nat) : Member := ⟨n * m.size, m.align, m.aligned⟩

def placeFrom (start : Nat) : List Member → List (List Byte) → List Byte
  | m :: ms, block :: blocks =>
    List.replicate (roundUp m.align start - start) 0 ++ block ++
      placeFrom (roundUp m.align start + m.size) ms blocks
  | _, _ => []

/-- The structure whose members hold the given bytes. -/
def place (ms : List Member) (blocks : List (List Byte)) : List Byte :=
  placeFrom 0 ms blocks ++ List.replicate (structSize ms - endFrom 0 ms) 0

def membersFrom (start : Nat) (ms : List Member) (bytes : List Byte) : List (List Byte) :=
  List.zipWith (fun offset m => (bytes.drop offset).take m.size) (offsetsFrom start ms) ms

/-- The bytes of the members. -/
def members (ms : List Member) (bytes : List Byte) : List (List Byte) := membersFrom 0 ms bytes

/-- Each block has the size of its member. -/
def Fill (ms : List Member) (blocks : List (List Byte)) : Prop :=
  List.Forall₂ (fun m block => block.length = m.size) ms blocks

variable {ms : List Member} {blocks : List (List Byte)} {start : Nat}

theorem endFrom_ge (start : Nat) (ms : List Member) :
    start + (ms.map size).sum ≤ endFrom start ms := by
  induction ms generalizing start with
  | nil => exact Nat.le_refl _
  | cons m ms ih =>
    have up := le_roundUp m.aligned start
    have rest := ih (roundUp m.align start + m.size)
    rw [List.map_cons, List.sum_cons, endFrom]
    omega

theorem length_placeFrom (start : Nat) (fill : Fill ms blocks) :
    start + (placeFrom start ms blocks).length = endFrom start ms := by
  induction fill generalizing start with
  | nil => exact Nat.add_zero start
  | @cons m block ms blocks same _ ih =>
    have up := le_roundUp m.aligned start
    rw [placeFrom, endFrom, ← ih]
    simp only [List.length_append, List.length_replicate, same]
    omega

theorem length_place (fill : Fill ms blocks) : (place ms blocks).length = structSize ms := by
  have body := length_placeFrom 0 fill
  have up := le_roundUp (struct ms).aligned (endFrom 0 ms)
  have size : roundUp (struct ms).align (endFrom 0 ms) = structSize ms := rfl
  rw [place, List.length_append, List.length_replicate]
  omega

/-- Reading what was placed, behind anything and in front of anything. -/
theorem membersFrom_placeFrom (fill : Fill ms blocks) (before behind : List Byte)
    (length : before.length = start) :
    membersFrom start ms (before ++ placeFrom start ms blocks ++ behind) = blocks := by
  induction fill generalizing start before with
  | nil => rfl
  | @cons m block ms blocks same _ ih =>
    have up := le_roundUp m.aligned start
    -- the padding and this member belong to what stands before the next
    have regroup : before ++ placeFrom start (m :: ms) (block :: blocks) ++ behind =
        (before ++ List.replicate (roundUp m.align start - start) 0 ++ block) ++
          placeFrom (roundUp m.align start + m.size) ms blocks ++ behind := by
      simp [placeFrom]
    have head : (before ++ List.replicate (roundUp m.align start - start) (0 : Byte)).length =
        roundUp m.align start := by
      rw [List.length_append, List.length_replicate]
      omega
    have first : ((before ++ placeFrom start (m :: ms) (block :: blocks) ++ behind).drop
        (roundUp m.align start)).take m.size = block := by
      rw [regroup, List.append_assoc, List.append_assoc _ block, List.drop_left' head,
        List.take_left' same]
    have rest : membersFrom (roundUp m.align start + m.size) ms
        (before ++ placeFrom start (m :: ms) (block :: blocks) ++ behind) = blocks := by
      rw [regroup]
      apply ih
      rw [List.length_append, head, same]
    rw [membersFrom, offsetsFrom, List.zipWith_cons_cons, first]
    exact congrArg (block :: ·) rest

theorem members_place (fill : Fill ms blocks) : members ms (place ms blocks) = blocks :=
  membersFrom_placeFrom fill [] _ rfl

theorem placeFrom_membersFrom (bytes : List Byte)
    (tight : endFrom start ms = start + (ms.map size).sum) :
    placeFrom start ms (membersFrom start ms bytes) =
      (bytes.drop start).take (ms.map size).sum := by
  induction ms generalizing start with
  | nil => simp [placeFrom]
  | cons m ms ih =>
    have up := le_roundUp m.aligned start
    have least := endFrom_ge (roundUp m.align start + m.size) ms
    rw [endFrom, List.map_cons, List.sum_cons] at tight
    have here : roundUp m.align start = start := by omega
    rw [here] at tight least
    have rest := @ih (start + m.size) (by omega)
    have unfolded : membersFrom start (m :: ms) bytes =
        (bytes.drop start).take m.size :: membersFrom (start + m.size) ms bytes := by
      simp [membersFrom, offsetsFrom, here]
    rw [unfolded, placeFrom, here, rest, Nat.sub_self, List.replicate_zero, List.nil_append,
      List.map_cons, List.sum_cons, ← List.drop_drop, List.take_add]

/-- Without padding a string of the right length is made of its members. -/
theorem place_members {bytes : List Byte} (tight : structSize ms = (ms.map size).sum)
    (length : bytes.length = structSize ms) : place ms (members ms bytes) = bytes := by
  have least := endFrom_ge 0 ms
  have up := le_roundUp (struct ms).aligned (endFrom 0 ms)
  have size : roundUp (struct ms).align (endFrom 0 ms) = structSize ms := rfl
  have body := @placeFrom_membersFrom ms 0 bytes (by omega)
  rw [place, members, body, List.drop_zero, List.take_of_length_le (by omega),
    show structSize ms - endFrom 0 ms = 0 by omega, List.replicate_zero, List.append_nil]

/-- A string that is long enough fills the members. -/
theorem fill_membersFrom {bytes : List Byte} (long : endFrom start ms ≤ bytes.length) :
    Fill ms (membersFrom start ms bytes) := by
  induction ms generalizing start with
  | nil => exact .nil
  | cons m ms ih =>
    rw [endFrom] at long
    have least := endFrom_ge (roundUp m.align start + m.size) ms
    refine .cons ?_ (ih long)
    rw [List.length_take, List.length_drop]
    omega

end Member

/-! ## Values in bytes -/

/-- A type whose values are the strings of `n` bytes. -/
structure Codec (n : Nat) (α : Type*) where
  encode : α → List Byte
  decode : List Byte → α
  length_encode : ∀ a, (encode a).length = n
  decode_encode : ∀ a, decode (encode a) = a
  encode_decode : ∀ bytes, bytes.length = n → encode (decode bytes) = bytes

namespace Codec

variable {α : Type*} {n size : Nat}

/-- A little-endian word of `n` bytes. -/
def word (n : Nat) {w : Nat} (width : 256 ^ n = 2 ^ w) : Codec n (BitVec w) where
  encode v := toLE n v.toNat
  decode bytes := BitVec.ofNat w (ofLE bytes)
  length_encode v := length_toLE n v.toNat
  decode_encode v := by
    rw [ofLE_toLE_of_lt (by rw [width]; exact v.isLt)]
    simp
  encode_decode bytes length := by
    have small := ofLE_lt bytes
    rw [length, width] at small
    rw [BitVec.toNat_ofNat, Nat.mod_eq_of_lt small, ← length, toLE_ofLE]

theorem chunk_flatMap (c : Codec size α) {as : List α} {i : Nat} {a : α} (at_i : as[i]? = some a) :
    ((as.flatMap c.encode).drop (i * size)).take size = c.encode a := by
  induction as generalizing i with
  | nil => cases at_i
  | cons first as ih =>
    rw [List.flatMap_cons]
    cases i with
    | zero =>
      cases at_i
      rw [Nat.zero_mul, List.drop_zero, List.take_left' (c.length_encode _)]
    | succ i =>
      rw [Nat.succ_mul, Nat.add_comm, ← List.drop_drop, List.drop_left' (c.length_encode _)]
      exact ih (by simpa using at_i)

theorem flatMap_chunks (c : Codec size α) {n : Nat} {bytes : List Byte}
    (length : bytes.length = n * size) :
    (List.ofFn fun i : Fin n => c.decode ((bytes.drop (i * size)).take size)).flatMap c.encode =
      bytes := by
  induction n generalizing bytes with
  | zero =>
    rw [Nat.zero_mul, List.length_eq_zero_iff] at length
    rw [length]
    rfl
  | succ n ih =>
    rw [Nat.succ_mul] at length
    have first : (bytes.take size).length = size := by
      rw [List.length_take]
      omega
    have rest := @ih (bytes.drop size) (by rw [List.length_drop]; omega)
    have chunks : ∀ i : Fin n, (bytes.drop ((i.succ : Fin (n + 1)) * size)).take size =
        ((bytes.drop size).drop (i * size)).take size := by
      intro i
      rw [List.drop_drop, Fin.val_succ, Nat.succ_mul, Nat.add_comm]
    rw [List.ofFn_succ, List.flatMap_cons]
    simp only [chunks, rest, Fin.val_zero, Nat.zero_mul, List.drop_zero]
    rw [c.encode_decode _ first, List.take_append_drop]

/-- An array, its elements one after another. -/
def array (c : Codec size α) (n : Nat) : Codec (n * size) (Fin n → α) where
  encode f := (List.ofFn f).flatMap c.encode
  decode bytes i := c.decode ((bytes.drop (i * size)).take size)
  length_encode f := by
    simp [List.length_flatMap, c.length_encode, Function.comp_def]
  decode_encode f := by
    funext i
    have at_i : (List.ofFn f)[i.val]? = some (f i) := by simp
    rw [c.chunk_flatMap at_i, c.decode_encode]
  encode_decode bytes length := c.flatMap_chunks length

end Codec

/-! ## Values in structures -/

/-- The members of a structure and what they hold. -/
structure CStruct (α : Type*) where
  fields : List Member
  blocks : α → List (List Byte)
  ofBlocks : List (List Byte) → α
  fill : ∀ a, Member.Fill fields (blocks a)
  read : ∀ a, ofBlocks (blocks a) = a
  write : ∀ bs, Member.Fill fields bs → blocks (ofBlocks bs) = bs

namespace CStruct

variable {α β : Type*}

def nothing : CStruct Unit where
  fields := []
  blocks _ := []
  ofBlocks _ := ()
  fill _ := .nil
  read _ := rfl
  write bs fill := by
    cases fill
    rfl

/-- One more member, in front. -/
def field (m : Member) (c : Codec m.size α) (rest : CStruct β) : CStruct (α × β) where
  fields := m :: rest.fields
  blocks v := c.encode v.1 :: rest.blocks v.2
  ofBlocks bs := (c.decode (bs.headD []), rest.ofBlocks bs.tail)
  fill v := .cons (c.length_encode v.1) (rest.fill v.2)
  read v := by simp [c.decode_encode, rest.read]
  write bs fill := by
    cases fill with
    | cons length fill => simp [c.encode_decode _ length, rest.write _ fill]

def iso (c : CStruct α) (e : α ≃ β) : CStruct β where
  fields := c.fields
  blocks b := c.blocks (e.symm b)
  ofBlocks bs := e (c.ofBlocks bs)
  fill b := c.fill _
  read b := by rw [c.read, e.apply_symm_apply]
  write bs fill := by rw [e.symm_apply_apply, c.write bs fill]

variable (c : CStruct α)

def size : Nat := Member.structSize c.fields

def pack (a : α) : List Byte := Member.place c.fields (c.blocks a)

def unpack (bytes : List Byte) : α := c.ofBlocks (Member.members c.fields bytes)

theorem length_pack (a : α) : (c.pack a).length = c.size := Member.length_place (c.fill a)

theorem unpack_pack (a : α) : c.unpack (c.pack a) = a := by
  rw [unpack, pack, Member.members_place (c.fill a), c.read]

theorem pack_unpack (tight : c.size = (c.fields.map Member.size).sum) {bytes : List Byte}
    (length : bytes.length = c.size) : c.pack (c.unpack bytes) = bytes := by
  have within : Member.endFrom 0 c.fields ≤ bytes.length := by
    rw [length]
    exact le_roundUp (Member.struct c.fields).aligned _
  have filled : Member.Fill c.fields (Member.members c.fields bytes) :=
    Member.fill_membersFrom within
  rw [pack, unpack, c.write _ filled]
  exact Member.place_members tight length

/-- A structure without padding is a string of its size. -/
def codec (tight : c.size = (c.fields.map Member.size).sum) : Codec c.size α where
  encode := c.pack
  decode := c.unpack
  length_encode := c.length_pack
  decode_encode := c.unpack_pack
  encode_decode _ length := c.pack_unpack tight length

end CStruct

end Seccompy.Lib
