import Seccompy.Lib.Struct
import Seccompy.Filter.Load
import Seccompy.Notify.Protocol

/-!
# Structures and requests in memory

The ctypes structures of `_syscall.py` as C lays them out, and the ioctl requests of
`notify.py` as the kernel receives them: a number that encodes direction, size and command,
and the bytes of a structure.  Every attempt of a call points to a string that holds each of
its integers at the offset `linux/seccomp.h` has for it (`requests_on_wire`), and a
notification shows the bytes the kernel wrote, among them the record the filter has seen
(`notification_bytes`).
-/

namespace Seccompy

open Lib Bpf

/-! ## The structures -/

def cUint16 : Member := ⟨2, 2, by decide⟩
def cInt32 : Member := ⟨4, 4, by decide⟩
def cUint32 : Member := ⟨4, 4, by decide⟩
def cInt64 : Member := ⟨8, 8, by decide⟩
def cUint64 : Member := ⟨8, 8, by decide⟩

def codec16 : Codec 2 (BitVec 16) := .word 2 (by norm_num)
def codec32 : Codec 4 U32 := .word 4 (by norm_num)
def codec64 : Codec 8 U64 := .word 8 (by norm_num)

open CStruct in
def SeccompData.struct : CStruct SeccompData :=
  (field cInt32 codec32 <| field cUint32 codec32 <| field cUint64 codec64 <|
    field (cUint64.array 6) (codec64.array 6) nothing).iso
    { toFun := fun v => ⟨v.1, v.2.1, v.2.2.1, v.2.2.2.1⟩
      invFun := fun d => (d.nr, d.arch, d.instructionPointer, d.args, ())
      left_inv := fun _ => rfl
      right_inv := fun _ => rfl }

theorem SeccompData.struct_tight :
    SeccompData.struct.size = (SeccompData.struct.fields.map Member.size).sum := by decide

open CStruct in
def SeccompNotif.struct : CStruct SeccompNotif :=
  (field cUint64 codec64 <| field cUint32 codec32 <| field cUint32 codec32 <|
    field (.struct SeccompData.struct.fields) (SeccompData.struct.codec SeccompData.struct_tight)
      nothing).iso
    { toFun := fun v => ⟨v.1, v.2.1, v.2.2.1, v.2.2.2.1⟩
      invFun := fun n => (n.id, n.pid, n.flags, n.data, ())
      left_inv := fun _ => rfl
      right_inv := fun _ => rfl }

open CStruct in
def SeccompNotifResp.struct : CStruct SeccompNotifResp :=
  (field cUint64 codec64 <| field cInt64 codec64 <| field cInt32 codec32 <|
    field cUint32 codec32 nothing).iso
    { toFun := fun v => ⟨v.1, v.2.1, v.2.2.1, v.2.2.2.1⟩
      invFun := fun r => (r.id, r.val, r.error, r.flags, ())
      left_inv := fun _ => rfl
      right_inv := fun _ => rfl }

open CStruct in
def SeccompNotifAddfd.struct : CStruct SeccompNotifAddfd :=
  (field cUint64 codec64 <| field cUint32 codec32 <| field cUint32 codec32 <|
    field cUint32 codec32 <| field cUint32 codec32 nothing).iso
    { toFun := fun v => ⟨v.1, v.2.1, v.2.2.1, v.2.2.2.1, v.2.2.2.2.1⟩
      invFun := fun r => (r.id, r.flags, r.srcfd, r.newfd, r.newfdFlags, ())
      left_inv := fun _ => rfl
      right_inv := fun _ => rfl }

theorem SeccompNotif.struct_tight :
    SeccompNotif.struct.size = (SeccompNotif.struct.fields.map Member.size).sum := by decide

/-- `_EXPECTED_SIZES` is what C makes of the structures. -/
theorem expectedSizes_struct : expectedSizes =
    ⟨SeccompNotif.struct.size, SeccompNotifResp.struct.size, SeccompData.struct.size⟩ := by decide

/-- The record of a notification is the one a filter's loads read. -/
theorem SeccompData.pack_struct (d : SeccompData) : SeccompData.struct.pack d = d.bytes := by
  have args : (List.ofFn d.args).flatMap codec64.encode =
      (List.finRange 6).flatMap fun i => toLE 8 (d.args i).toNat := by
    rw [List.ofFn_eq_map, List.flatMap_map]
    rfl
  have placed : SeccompData.struct.pack d = toLE 4 d.nr.toNat ++ (toLE 4 d.arch.toNat ++
      (toLE 8 d.instructionPointer.toNat ++ ((List.ofFn d.args).flatMap codec64.encode ++ []))) ++
        [] := rfl
  rw [placed, args]
  simp [SeccompData.bytes]

/-! ## Requests -/

def iocWrite : Nat := 1
def iocRead : Nat := 2

/-- `ord("!")`. -/
def iocMagic : Nat := 33

/-- `_ioc`. -/
def ioc (direction nr size : Nat) : Nat :=
  (direction <<< 30) ||| (size <<< 16) ||| (iocMagic <<< 8) ||| nr

/-- `_IOCTL_NOTIF_*`. -/
def IoctlRequest.number : IoctlRequest → Nat
  | .recv => ioc (iocRead ||| iocWrite) 0 SeccompNotif.struct.size
  | .send _ => ioc (iocRead ||| iocWrite) 1 SeccompNotifResp.struct.size
  | .idValid _ => ioc iocWrite 2 cUint64.size
  | .addfd _ => ioc iocWrite 3 SeccompNotifAddfd.struct.size
  | .setFlags _ => ioc iocWrite 4 cUint64.size

/-- What the argument points to when the call is made. -/
def IoctlRequest.buffer : IoctlRequest → Bytes
  | .recv => List.replicate SeccompNotif.struct.size 0
  | .send resp => SeccompNotifResp.struct.pack resp
  | .idValid cookie => codec64.encode cookie
  | .addfd req => SeccompNotifAddfd.struct.pack req
  | .setFlags bits => codec64.encode bits

theorem ioc_eq {direction nr size : Nat} (command : nr < 2 ^ 8) (small : size < 2 ^ 14) :
    ioc direction nr size = direction * 2 ^ 30 + size * 2 ^ 16 + iocMagic * 2 ^ 8 + nr := by
  have low : iocMagic <<< 8 + nr = iocMagic <<< 8 ||| nr := Nat.shiftLeft_add_eq_or_of_lt command _
  have middle : size <<< 16 + (iocMagic <<< 8 + nr) = size <<< 16 ||| (iocMagic <<< 8 + nr) := by
    apply Nat.shiftLeft_add_eq_or_of_lt
    simp only [iocMagic, Nat.shiftLeft_eq]
    omega
  have high : direction <<< 30 + (size <<< 16 + (iocMagic <<< 8 + nr)) =
      direction <<< 30 ||| (size <<< 16 + (iocMagic <<< 8 + nr)) := by
    apply Nat.shiftLeft_add_eq_or_of_lt
    simp only [iocMagic, Nat.shiftLeft_eq]
    omega
  have whole : ioc direction nr size = direction <<< 30 + (size <<< 16 + (iocMagic <<< 8 + nr)) := by
    rw [high, middle, low, ← Nat.lor_assoc, ← Nat.lor_assoc]
    rfl
  refine whole.trans ?_
  simp only [Nat.shiftLeft_eq, Nat.add_assoc]

theorem IoctlRequest.number_recv : IoctlRequest.recv.number = 0xC0502100 := by
  have sizes : SeccompNotif.struct.size = 80 := by decide
  rw [IoctlRequest.number, sizes, ioc_eq (by decide) (by decide)]
  rfl

theorem IoctlRequest.number_send (resp : SeccompNotifResp) :
    (IoctlRequest.send resp).number = 0xC0182101 := by
  have sizes : SeccompNotifResp.struct.size = 24 := by decide
  rw [IoctlRequest.number, sizes, ioc_eq (by decide) (by decide)]
  rfl

theorem IoctlRequest.number_idValid (cookie : U64) :
    (IoctlRequest.idValid cookie).number = 0x40082102 := by
  rw [IoctlRequest.number, ioc_eq (by decide) (by decide)]
  rfl

theorem IoctlRequest.number_addfd (req : SeccompNotifAddfd) :
    (IoctlRequest.addfd req).number = 0x40182103 := by
  have sizes : SeccompNotifAddfd.struct.size = 24 := by decide
  rw [IoctlRequest.number, sizes, ioc_eq (by decide) (by decide)]
  rfl

theorem IoctlRequest.number_setFlags (bits : U64) :
    (IoctlRequest.setFlags bits).number = 0x40082104 := by
  rw [IoctlRequest.number, ioc_eq (by decide) (by decide)]
  rfl

/-! ## Integers at offsets -/

theorem toNat_codec32 (bytes : Bytes) (length : bytes.length = 4) :
    (codec32.decode bytes).toNat = ofLE bytes := by
  have small := ofLE_lt bytes
  rw [length] at small
  exact Nat.mod_eq_of_lt small

theorem toNat_codec64 (bytes : Bytes) (length : bytes.length = 8) :
    (codec64.decode bytes).toNat = ofLE bytes := by
  have small := ofLE_lt bytes
  rw [length] at small
  exact Nat.mod_eq_of_lt small

/-- Some bytes of a string. -/
def slice (bytes : Bytes) (offset size : Nat) : Bytes := (bytes.drop offset).take size

theorem length_slice {bytes : Bytes} {offset size : Nat} (inside : offset + size ≤ bytes.length) :
    (slice bytes offset size).length = size := by
  rw [slice, List.length_take, List.length_drop]
  omega

theorem slice_slice {bytes : Bytes} {offset size inner part : Nat} (inside : inner + part ≤ size) :
    slice (slice bytes offset size) inner part = slice bytes (offset + inner) part := by
  rw [slice, slice, slice, List.drop_take, List.take_take, List.drop_drop,
    Nat.min_eq_left (by omega)]

/-- The unsigned integer of some bytes of a string. -/
def unsignedAt (bytes : Bytes) (offset size : Nat) : Int := ofLE (slice bytes offset size)

/-- The signed one, in two's complement. -/
def signedAt (bytes : Bytes) (offset size : Nat) : Int :=
  (BitVec.ofNat (8 * size) (ofLE (slice bytes offset size))).toInt

/-- A call as `linux/seccomp.h` has it on the wire: the number of the ioctl, and the integers
of the arguments at the offsets of their fields. -/
def SupervisorCall.OnWire (number : Nat) (bytes : Bytes) : SupervisorCall → Prop
  | .recv => number = 0xC0502100 ∧ bytes = List.replicate 80 0
  | .ask (.respond notifId error val flags) => number = 0xC0182101 ∧ bytes.length = 24 ∧
      unsignedAt bytes 0 8 = notifId ∧ signedAt bytes 8 8 = val ∧ signedAt bytes 16 4 = -error ∧
      unsignedAt bytes 20 4 = flags
  | .ask (.valid notifId) => number = 0x40082102 ∧ bytes.length = 8 ∧ unsignedAt bytes 0 8 = notifId
  | .ask (.addfd notifId localFd flags newfd newfdFlags) => number = 0x40182103 ∧
      bytes.length = 24 ∧ unsignedAt bytes 0 8 = notifId ∧ unsignedAt bytes 8 4 = flags ∧
      unsignedAt bytes 12 4 = localFd ∧ unsignedAt bytes 16 4 = newfd ∧
      unsignedAt bytes 20 4 = newfdFlags
  | .ask (.setFlags flags) => number = 0x40082104 ∧ bytes.length = 8 ∧ unsignedAt bytes 0 8 = flags

theorem SeccompNotifResp.unpack_struct (bytes : Bytes) : SeccompNotifResp.struct.unpack bytes =
    ⟨codec64.decode (slice bytes 0 8), codec64.decode (slice bytes 8 8),
      codec32.decode (slice bytes 16 4), codec32.decode (slice bytes 20 4)⟩ := rfl

theorem SeccompNotifAddfd.unpack_struct (bytes : Bytes) : SeccompNotifAddfd.struct.unpack bytes =
    ⟨codec64.decode (slice bytes 0 8), codec32.decode (slice bytes 8 4),
      codec32.decode (slice bytes 12 4), codec32.decode (slice bytes 16 4),
      codec32.decode (slice bytes 20 4)⟩ := rfl

theorem unsignedAt_codec64 {bytes : Bytes} {offset : Nat} (inside : offset + 8 ≤ bytes.length) :
    unsignedAt bytes offset 8 = (codec64.decode (slice bytes offset 8)).toNat := by
  rw [toNat_codec64 _ (length_slice inside), unsignedAt]

theorem unsignedAt_codec32 {bytes : Bytes} {offset : Nat} (inside : offset + 4 ≤ bytes.length) :
    unsignedAt bytes offset 4 = (codec32.decode (slice bytes offset 4)).toNat := by
  rw [toNat_codec32 _ (length_slice inside), unsignedAt]

/-- What a response holds at its offsets. -/
theorem SeccompNotifResp.pack_at (resp : SeccompNotifResp) :
    (SeccompNotifResp.struct.pack resp).length = 24 ∧
      unsignedAt (SeccompNotifResp.struct.pack resp) 0 8 = resp.id.toNat ∧
      signedAt (SeccompNotifResp.struct.pack resp) 8 8 = resp.val.toInt ∧
      signedAt (SeccompNotifResp.struct.pack resp) 16 4 = resp.error.toInt ∧
      unsignedAt (SeccompNotifResp.struct.pack resp) 20 4 = resp.flags.toNat := by
  have length : (SeccompNotifResp.struct.pack resp).length = 24 := CStruct.length_pack _ resp
  have read := SeccompNotifResp.struct.unpack_pack resp
  rw [SeccompNotifResp.unpack_struct] at read
  generalize SeccompNotifResp.struct.pack resp = bytes at length read
  subst read
  exact ⟨length, unsignedAt_codec64 (by omega), rfl, rfl, unsignedAt_codec32 (by omega)⟩

/-- What the request for a descriptor holds at its offsets. -/
theorem SeccompNotifAddfd.pack_at (req : SeccompNotifAddfd) :
    (SeccompNotifAddfd.struct.pack req).length = 24 ∧
      unsignedAt (SeccompNotifAddfd.struct.pack req) 0 8 = req.id.toNat ∧
      unsignedAt (SeccompNotifAddfd.struct.pack req) 8 4 = req.flags.toNat ∧
      unsignedAt (SeccompNotifAddfd.struct.pack req) 12 4 = req.srcfd.toNat ∧
      unsignedAt (SeccompNotifAddfd.struct.pack req) 16 4 = req.newfd.toNat ∧
      unsignedAt (SeccompNotifAddfd.struct.pack req) 20 4 = req.newfdFlags.toNat := by
  have length : (SeccompNotifAddfd.struct.pack req).length = 24 := CStruct.length_pack _ req
  have read := SeccompNotifAddfd.struct.unpack_pack req
  rw [SeccompNotifAddfd.unpack_struct] at read
  generalize SeccompNotifAddfd.struct.pack req = bytes at length read
  subst read
  exact ⟨length, unsignedAt_codec64 (by omega), unsignedAt_codec32 (by omega),
    unsignedAt_codec32 (by omega), unsignedAt_codec32 (by omega), unsignedAt_codec32 (by omega)⟩

/-- A single word is the whole string. -/
theorem encode_at (word : U64) : (codec64.encode word).length = 8 ∧
    unsignedAt (codec64.encode word) 0 8 = word.toNat := by
  have length : (codec64.encode word).length = 8 := codec64.length_encode word
  have whole : slice (codec64.encode word) 0 8 = codec64.encode word := by
    rw [slice, List.drop_zero, List.take_of_length_le length.le]
  refine ⟨length, ?_⟩
  rw [unsignedAt_codec64 (by omega), whole, codec64.decode_encode]

/-- The request of a call in range, on the wire. -/
theorem SupervisorCall.request_on_wire {c : SupervisorCall} (within : c.Within) :
    c.OnWire c.request.number c.request.buffer := by
  cases c with
  | recv => exact ⟨IoctlRequest.number_recv, rfl⟩
  | ask c =>
    have carries := RequestCall.carries within
    cases c with
    | respond notifId error val flags =>
      obtain ⟨id, value, negated, word⟩ := carries
      obtain ⟨length, atId, atVal, atError, atFlags⟩ := SeccompNotifResp.pack_at _
      exact ⟨IoctlRequest.number_send _, length, atId.trans id, atVal.trans value,
        atError.trans negated, atFlags.trans word⟩
    | addfd notifId localFd flags newfd newfdFlags =>
      obtain ⟨id, src, word, dst, cloexec⟩ := carries
      obtain ⟨length, atId, atFlags, atSrc, atDst, atCloexec⟩ := SeccompNotifAddfd.pack_at _
      exact ⟨IoctlRequest.number_addfd _, length, atId.trans id, atFlags.trans word,
        atSrc.trans src, atDst.trans dst, atCloexec.trans cloexec⟩
    | valid notifId =>
      obtain ⟨length, atId⟩ := encode_at (BitVec.ofInt 64 notifId)
      exact ⟨IoctlRequest.number_idValid _, length, atId.trans carries⟩
    | setFlags flags =>
      obtain ⟨length, atBits⟩ := encode_at (BitVec.ofInt 64 flags)
      exact ⟨IoctlRequest.number_setFlags _, length, atBits.trans carries⟩

/-- The size in the number of a request is that of the bytes it points to. -/
theorem IoctlRequest.number_size (r : IoctlRequest) : r.number / 2 ^ 16 % 2 ^ 14 = r.buffer.length := by
  cases r with
  | recv =>
    rw [IoctlRequest.number_recv]
    exact List.length_replicate.symm
  | send resp =>
    rw [IoctlRequest.number_send, IoctlRequest.buffer, CStruct.length_pack]
    decide
  | idValid cookie =>
    rw [IoctlRequest.number_idValid, IoctlRequest.buffer, codec64.length_encode]
    decide
  | addfd req =>
    rw [IoctlRequest.number_addfd, IoctlRequest.buffer, CStruct.length_pack]
    decide
  | setFlags bits =>
    rw [IoctlRequest.number_setFlags, IoctlRequest.buffer, codec64.length_encode]
    decide

/-- Whatever a call is given and whatever the kernel replies, each attempt it makes carries
the integers it was called with, at the offsets of `linux/seccomp.h`, under the number of its
command, whose size is that of the bytes. -/
theorem requests_on_wire (p : Platform) (replies : IoctlReplies) (filled : SeccompNotif)
    (c : SupervisorCall) (s : Listener) : ∃ issued : List IoctlRequest,
    ((c.perform p replies filled).call s).2.log = s.log ++ issued.map .ioctl ∧
      ∀ r ∈ issued, c.OnWire r.number r.buffer ∧ r.number / 2 ^ 16 % 2 ^ 14 = r.buffer.length := by
  rcases c.perform_cases p replies filled s with ⟨-, msg, refused⟩ | ⟨within, passed⟩
  · rw [refused]
    exact ⟨[], (List.append_nil _).symm, List.forall_mem_nil _⟩
  · rw [passed]
    rcases Listener.ioctl_cases p c.request replies s with ⟨e, raised, -, -⟩ | ⟨-, n, log⟩
    · rw [raised]
      exact ⟨[], (List.append_nil _).symm, List.forall_mem_nil _⟩
    · refine ⟨List.replicate (n + 1) c.request, ?_, ?_⟩
      · rw [List.map_replicate]
        exact log
      · intro r mem
        rw [List.eq_of_mem_replicate mem]
        exact ⟨SupervisorCall.request_on_wire within, c.request.number_size⟩

/-- `addfd` of descriptor 5 as 9, close-on-exec, that answers notification 0x0102. -/
example : (SupervisorCall.ask (.addfd 0x0102 5 3 9 0x80000)).request.buffer =
    [2, 1, 0, 0, 0, 0, 0, 0, 3, 0, 0, 0, 5, 0, 0, 0, 9, 0, 0, 0, 0, 0, 8, 0] := by decide

/-! ## Notifications -/

theorem SeccompNotif.unpack_struct (bytes : Bytes) : SeccompNotif.struct.unpack bytes =
    ⟨codec64.decode (slice bytes 0 8), codec32.decode (slice bytes 8 4),
      codec32.decode (slice bytes 12 4), SeccompData.struct.unpack (slice bytes 16 64)⟩ := rfl

theorem SeccompData.unpack_struct (bytes : Bytes) : SeccompData.struct.unpack bytes =
    ⟨codec32.decode (slice bytes 0 4), codec32.decode (slice bytes 4 4),
      codec64.decode (slice bytes 8 8),
      fun i => codec64.decode (slice (slice bytes 16 48) (i * 8) 8)⟩ := rfl

/-- `recv` on the bytes the kernel wrote: each field of the notification is the integer at
its offset, the bytes from offset 16 on are the record that the filter's loads read, and
nothing is left over.  Where its ioctl returns, `recv` returns this notification. -/
theorem notification_bytes (bytes : Bytes) (length : bytes.length = 80) :
    (SeccompNotif.struct.unpack bytes).notification =
      { id := ofLE (slice bytes 0 8)
        pid := ofLE (slice bytes 8 4)
        flags := ofLE (slice bytes 12 4)
        nr := (BitVec.ofNat 32 (ofLE (slice bytes 16 4))).toInt
        arch := ofLE (slice bytes 20 4)
        instructionPointer := ofLE (slice bytes 24 8)
        args := (List.finRange 6).map fun i => ofLE (slice bytes (32 + i * 8) 8) } ∧
    (SeccompNotif.struct.unpack bytes).data.bytes = slice bytes 16 64 ∧
    SeccompNotif.struct.pack (SeccompNotif.struct.unpack bytes) = bytes ∧
    ∀ (p : Platform) (replies : IoctlReplies) (s : Listener),
      (Listener.recv p replies (SeccompNotif.struct.unpack bytes)).call s =
        (((Listener.ioctl p .recv replies).call s).1.map fun _ =>
          (SeccompNotif.struct.unpack bytes).notification,
          ((Listener.ioctl p .recv replies).call s).2) := by
  have inside : ∀ {offset size}, offset + size ≤ 80 → (slice bytes offset size).length = size :=
    fun within => length_slice (within.trans_eq length.symm)
  refine ⟨?_, ?_, ?_, ?_⟩
  · have args : ∀ i : Fin 6, (codec64.decode (slice (slice (slice bytes 16 64) 16 48)
        (i * 8) 8)).toNat = ofLE (slice bytes (32 + i * 8) 8) := by
      intro i
      have := i.isLt
      rw [slice_slice (by omega), slice_slice (by omega), toNat_codec64 _ (inside (by omega)),
        ← Nat.add_assoc]
    rw [SeccompNotif.unpack_struct, SeccompData.unpack_struct]
    simp only [SeccompNotif.notification, args]
    rw [slice_slice (by decide), slice_slice (by decide), slice_slice (by decide),
      toNat_codec64 _ (inside (by decide)), toNat_codec32 _ (inside (by decide)),
      toNat_codec32 _ (inside (by decide)), toNat_codec32 _ (inside (by decide)),
      toNat_codec64 _ (inside (by decide))]
    rfl
  · rw [SeccompNotif.unpack_struct, ← SeccompData.pack_struct]
    exact SeccompData.struct.pack_unpack SeccompData.struct_tight (inside (by decide))
  · exact SeccompNotif.struct.pack_unpack SeccompNotif.struct_tight length
  · exact fun p replies s => Listener.call_recv p replies _ s

/-- A `mount` with a mark at the top of its first argument. -/
def mountBytes : Bytes :=
  [9, 0, 0, 0, 0, 0, 0, 0, 0x39, 0x30, 0, 0, 0, 0, 0, 0, 165, 0, 0, 0, 0x3E, 0, 0, 0xC0] ++
    List.replicate 14 0 ++ [0xFF, 0x7F] ++ List.replicate 40 0

/-- `recv` reads it at its second attempt. -/
theorem notification_bytes_mount :
    ((Listener.recv ⟨"x86_64", true⟩ [.ok ⟨-1, eintr⟩, .ok ⟨0, 0⟩]
        (SeccompNotif.struct.unpack mountBytes)).call ⟨5, false, []⟩).1 =
      .ok ⟨9, 12345, 0, 165, 0xC000003E, 0, [0x7FFF000000000000, 0, 0, 0, 0, 0]⟩ ∧
    (SeccompNotif.struct.unpack mountBytes).data.bytes = slice mountBytes 16 64 ∧
    SeccompNotif.struct.pack (SeccompNotif.struct.unpack mountBytes) = mountBytes := by
  obtain ⟨fields, record, whole, received⟩ := notification_bytes mountBytes rfl
  refine ⟨?_, record, whole⟩
  rw [received, fields]
  decide

/-! ## The sizes the kernel reports -/

/-- `struct seccomp_notif_sizes`. -/
structure SeccompNotifSizes where
  seccompNotif : BitVec 16
  seccompNotifResp : BitVec 16
  seccompData : BitVec 16

open CStruct in
def SeccompNotifSizes.struct : CStruct SeccompNotifSizes :=
  (field cUint16 codec16 <| field cUint16 codec16 <| field cUint16 codec16 nothing).iso
    { toFun := fun v => ⟨v.1, v.2.1, v.2.2.1⟩
      invFun := fun s => (s.seccompNotif, s.seccompNotifResp, s.seccompData, ())
      left_inv := fun _ => rfl
      right_inv := fun _ => rfl }

/-- `notif_sizes`; `filled` is what the kernel left in the structure. -/
def notifSizes (p : Platform) (replies : List Reply) (filled : Bytes) :
    Py Received SeccompNotifSizes := do
  let _ ← seccomp p (sending 0 replies)
  return SeccompNotifSizes.struct.unpack filled

def SeccompNotifSizes.sizes (raw : SeccompNotifSizes) : NotifSizes :=
  ⟨raw.seccompNotif.toNat, raw.seccompNotifResp.toNat, raw.seccompData.toNat⟩

def sizes (p : Platform) (replies : List Reply) (filled : Bytes) : Py Received NotifSizes := do
  let raw ← notifSizes p replies filled
  return raw.sizes

theorem sizes_ok_iff {p : Platform} {replies : List Reply} {filled : Bytes} {kernel : NotifSizes} :
    ((sizes p replies filled).call []).1 = .ok kernel ↔
      (∃ r, Decides p replies r ∧ r.ret ≠ -1) ∧
        (SeccompNotifSizes.struct.unpack filled).sizes = kernel := by
  rw [sizes, notifSizes, Py.call_map, Py.call_map]
  rcases call_seccomp_sending p 0 replies with ⟨r, n, decides, ran⟩ | ⟨none, e, received, -, ran⟩
  · rw [ran, decides.exists_iff, Reply.outcome]
    by_cases failed : r.ret = -1
    · simp [failed, Except.map]
    · simp [failed, Except.map]
  · rw [ran]
    simp [Except.map, none]

theorem SeccompNotifSizes.expected_iff {filled : Bytes} (length : filled.length = 6) :
    (SeccompNotifSizes.struct.unpack filled).sizes = expectedSizes ↔
      filled = [80, 0, 24, 0, 64, 0] := by
  constructor
  · intro same
    have whole := SeccompNotifSizes.struct.pack_unpack (by decide) length
    rw [← whole]
    generalize SeccompNotifSizes.struct.unpack filled = raw at same
    obtain ⟨notif, resp, data⟩ := raw
    simp only [SeccompNotifSizes.sizes, expectedSizes, NotifSizes.mk.injEq] at same
    obtain ⟨isNotif, isResp, isData⟩ := same
    obtain rfl : notif = 80 := BitVec.eq_of_toNat_eq isNotif
    obtain rfl : resp = 24 := BitVec.eq_of_toNat_eq isResp
    obtain rfl : data = 64 := BitVec.eq_of_toNat_eq isData
    decide
  · rintro rfl
    decide

/-- The constructor accepts a descriptor exactly when the query of the sizes returns, the
kernel reports 80, 24 and 64, and the descriptor can be made non-inheritable. -/
theorem abi_check_exact (p : Platform) (replies : List Reply) (filled : Bytes)
    (length : filled.length = 6) (close setInheritable : Option PyExc) (fd : Int)
    (listener : Listener) :
    Listener.make ⟨((sizes p replies filled).call []).1, close, setInheritable⟩ fd = .ok listener ↔
      (∃ r, Decides p replies r ∧ r.ret ≠ -1) ∧ filled = [80, 0, 24, 0, 64, 0] ∧
        setInheritable = none ∧ listener = ⟨fd, false, []⟩ := by
  rw [Listener.make_ok_iff, sizes_ok_iff, SeccompNotifSizes.expected_iff length]
  exact and_assoc

/-- A kernel with the expected structures, interrupted once. -/
theorem abi_check_exact_expected :
    Listener.make ⟨((sizes ⟨"x86_64", true⟩ [⟨-1, eintr⟩, ⟨0, 0⟩] [80, 0, 24, 0, 64, 0]).call []).1,
      none, none⟩ 5 = .ok ⟨5, false, []⟩ := by
  refine (abi_check_exact ⟨"x86_64", true⟩ [⟨-1, eintr⟩, ⟨0, 0⟩] [80, 0, 24, 0, 64, 0] rfl none none 5
    ⟨5, false, []⟩).mpr ⟨⟨⟨0, 0⟩, ⟨?_, rfl, rfl⟩, by decide⟩, rfl, rfl, rfl⟩
  exact seccompNr_known (p := ⟨"x86_64", true⟩) auditArch_x86_64

end Seccompy
