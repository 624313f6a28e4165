import Seccompy.Filter.Adding
import Seccompy.Lib.Table

/-!
# Names and numbers of syscalls

`syscall_name` undoes `syscall_nr` but for the second names that the aarch64 table has for
some numbers (`names_round_trip`).  On the names that two architectures share, neither table
confuses what the other tells apart (`numbers_agree`).
-/

namespace Seccompy

open Lib Bpf

/-! ## The two tables -/

/-- A number for a name, by its bytes. -/
def spelling (name : String) : Nat :=
  name.toByteArray.data.toList.foldl (fun n byte => (n * 31 + byte.toNat) % 999983) 0

/-- The names of aarch64 that come second for their number. -/
def aarch64Aliases : List String :=
  ["fcntl64", "statfs64", "fstatfs64", "truncate64", "ftruncate64", "llseek", "sendfile64",
   "newfstatat", "fstatat64", "fstat64", "sync_file_range", "mmap2", "fadvise64_64"]

/-- What the reading of a table in both directions rests on: some names come second, the
others have a number each. -/
structure Native.Sound (row : Native) (aliases : List String) : Prop where
  names : (row.table.map Prod.fst).Nodup
  numbers : ((row.table.filter (·.1 ∉ aliases)).map Prod.snd).Nodup
  second : ∀ name ∈ aliases, (row.table.lookup name).bind (nameOf row.table) ≠ some name

theorem x86_64Native_sound : x86_64Native.Sound [] where
  names := nodup_of_distinct spelling (by decide +kernel)
  numbers := nodup_of_distinct id (by decide +kernel)
  second := by simp

theorem aarch64Native_sound : aarch64Native.Sound aarch64Aliases where
  names := nodup_of_distinct spelling (by decide +kernel)
  numbers := nodup_of_distinct id (by decide +kernel)
  second := by decide +kernel

namespace Native.Sound

variable {row : Native} {aliases : List String} {name name' : String} {nr : Nat}

/-- A name is given back for its number unless it comes second. -/
theorem nameOf_iff (sound : row.Sound aliases) (found : row.table.lookup name = some nr) :
    nameOf row.table nr = some name ↔ name ∉ aliases := by
  have notSecond : ∀ {first}, nameOf row.table nr = some first → first ∉ aliases := by
    intro first isFirst second
    have back := lookup_of_mem sound.names (mem_of_nameOf isFirst)
    apply sound.second first second
    rw [back]
    exact isFirst
  refine ⟨notSecond, fun isFirst => ?_⟩
  obtain ⟨first, given⟩ := exists_nameOf (mem_of_lookup found)
  have same : first = name := by
    refine eq_of_numbers sound.numbers (List.mem_filter.mpr ⟨mem_of_nameOf given, ?_⟩)
      (List.mem_filter.mpr ⟨mem_of_lookup found, by simpa using isFirst⟩)
    simpa using notSecond given
  rw [given, same]

end Native.Sound

theorem native_sound {machine : String} {row : Native} (known : native machine = .ok row) :
    row.Sound (if row.arch = "aarch64" then aarch64Aliases else []) := by
  rcases native_ok known with rfl | rfl
  · exact x86_64Native_sound
  · exact aarch64Native_sound

/-! ## Round trips -/

section RoundTrip

variable {machine : String} {row : Native} (known : native machine = .ok row)

include known

theorem syscallName_iff {nr : Int} {name : String} :
    syscallName machine nr = .ok name ↔ ∃ n : Nat, nr = n ∧ nameOf row.table n = some name := by
  simp only [syscallName, known, ok_bind]
  constructor
  · intro given
    split at given
    · next entry found =>
      cases given
      have number : (entry.2 : Int) = nr := by simpa using List.find?_some found
      subst number
      refine ⟨entry.2, rfl, ?_⟩
      simp only [Nat.cast_inj] at found
      rw [nameOf, found]
      rfl
    · cases given
  · rintro ⟨n, rfl, given⟩
    obtain ⟨entry, found, rfl⟩ := Option.map_eq_some_iff.mp given
    simp only [Nat.cast_inj, found]
    rfl

theorem syscallNr_name_iff {name : String} {word : U32} :
    syscallNr machine (.name name) = .ok word ↔ row.table.lookup name = some word.toNat := by
  constructor
  · intro ok
    obtain ⟨-, row', known', mem⟩ := syscallNr_ok ok
    cases known.symm.trans known'
    exact lookup_of_mem (native_sound known).names mem
  · intro found
    simp only [syscallNr, known, ok_bind, found]
    exact congrArg Except.ok (BitVec.eq_of_toNat_eq (by simp))

end RoundTrip

/-- A number and the name that is given for it are the same to a rule, and every name has a
number for which it is given back, but for the second names of aarch64, for which another
name of the same number is. -/
theorem names_round_trip (machine : String) :
    (∀ nr name, syscallName machine nr = .ok name →
      ∃ word, syscallNr machine (.name name) = .ok word ∧ syscallNr machine (.nr nr) = .ok word) ∧
    ∀ name word, syscallNr machine (.name name) = .ok word →
      ∃ first, syscallName machine word.toNat = .ok first ∧
        syscallNr machine (.name first) = .ok word ∧
        (first = name ↔ ¬ (arch machine = .ok "aarch64" ∧ name ∈ aarch64Aliases)) := by
  constructor
  · intro nr name given
    obtain ⟨row, known, -⟩ := bind_eq_ok.mp given
    obtain ⟨n, rfl, first⟩ := (syscallName_iff known).mp given
    have mem := mem_of_nameOf first
    have small := table_lt known mem
    have word : (BitVec.ofNat 32 n).toNat = n := by
      rw [BitVec.toNat_ofNat, Nat.mod_eq_of_lt (by omega)]
    refine ⟨BitVec.ofNat 32 n, ?_, ?_⟩
    · rw [syscallNr_name_iff known, word]
      exact lookup_of_mem (native_sound known).names mem
    · rw [syscallNr, if_pos (by omega), BitVec.ofInt_natCast]
  · intro name word numbered
    obtain ⟨row, known, -⟩ := bind_eq_ok.mp numbered
    have found := (syscallNr_name_iff known).mp numbered
    have sound := native_sound known
    obtain ⟨first, given⟩ := exists_nameOf (mem_of_lookup found)
    have named : arch machine = .ok row.arch := by
      simp only [arch, known]
      rfl
    refine ⟨first, (syscallName_iff known).mpr ⟨_, rfl, given⟩, ?_, ?_⟩
    · rw [syscallNr_name_iff known]
      exact lookup_of_mem sound.names (mem_of_nameOf given)
    · have back := sound.nameOf_iff found
      rw [given, Option.some.injEq] at back
      rw [back, named, Except.ok.injEq]
      by_cases aarch64 : row.arch = "aarch64"
      · simp [aarch64]
      · simp [aarch64]

theorem native_aarch64 : native "aarch64" = .ok aarch64Native := by
  have lower : "aarch64".toLower = "aarch64" := by
    have mapped : "aarch64".toLower = "aarch64".map Char.toLower := rfl
    rw [mapped, ← String.toList_inj, String.toList_map]
    rfl
  simp only [native, lower]
  rfl

/-- `newfstatat` on aarch64, where `fstatat` is listed first. -/
theorem names_round_trip_newfstatat :
    ∃ first, syscallName "aarch64" 79 = .ok first ∧ first ≠ "newfstatat" := by
  have numbered : syscallNr "aarch64" (.name "newfstatat") = .ok 79 :=
    (syscallNr_name_iff native_aarch64).mpr (by decide +kernel)
  have named : arch "aarch64" = .ok "aarch64" := by
    rw [arch, native_aarch64]
    rfl
  obtain ⟨first, given, -, back⟩ := (names_round_trip "aarch64").2 "newfstatat" 79 numbered
  exact ⟨first, given, fun same => back.mp same ⟨named, by decide⟩⟩

/-! ## Names that two architectures share -/

/-- The names that aarch64 has beside one of the same number that x86_64 has too. -/
def aarch64Spares : List String :=
  ["fcntl64", "statfs64", "fstatfs64", "truncate64", "ftruncate64", "llseek", "sendfile64",
   "fstatat", "fstatat64", "fstat64", "sync_file_range2", "mmap2", "fadvise64_64"]

theorem aarch64_shared_numbers :
    ((aarch64Syscalls.filter (·.1 ∉ aarch64Spares)).map Prod.snd).Nodup :=
  nodup_of_distinct id (by decide +kernel)

theorem x86_64_no_spares : ∀ name ∈ aarch64Spares, x86_64Syscalls.lookup name = none := by
  decide +kernel

theorem aarch64_shared {a b : String} {nr na nb : Nat} (isA : aarch64Syscalls.lookup a = some nr)
    (isB : aarch64Syscalls.lookup b = some nr) (onA : x86_64Syscalls.lookup a = some na)
    (onB : x86_64Syscalls.lookup b = some nb) : a = b := by
  have shared : ∀ {name n n'}, aarch64Syscalls.lookup name = some n →
      x86_64Syscalls.lookup name = some n' →
        (name, n) ∈ aarch64Syscalls.filter (·.1 ∉ aarch64Spares) := by
    intro name n n' found other
    refine List.mem_filter.mpr ⟨mem_of_lookup found, ?_⟩
    rw [decide_eq_true_eq]
    intro spare
    cases other.symm.trans (x86_64_no_spares name spare)
  exact eq_of_numbers aarch64_shared_numbers (shared isA onA) (shared isB onB)

/-- Names known to both machines that have one number on the first have one on the second. -/
theorem numbers_agree {machine machine' : String} {a b : String} {nr nr₁ nr₂ : U32}
    (isA : syscallNr machine (.name a) = .ok nr) (isB : syscallNr machine (.name b) = .ok nr)
    (isA' : syscallNr machine' (.name a) = .ok nr₁) (isB' : syscallNr machine' (.name b) = .ok nr₂) :
    nr₁ = nr₂ := by
  obtain ⟨row, known, -⟩ := bind_eq_ok.mp isA
  obtain ⟨row', known', -⟩ := bind_eq_ok.mp isA'
  rw [syscallNr_name_iff known] at isA isB
  rw [syscallNr_name_iff known'] at isA' isB'
  have same : a = b ∨ row = row' := by
    rcases native_ok known with rfl | rfl
    · refine .inl (@eq_of_numbers _ _ _ a b nr.toNat x86_64Native_sound.numbers ?_ ?_)
      · simpa using mem_of_lookup isA
      · simpa using mem_of_lookup isB
    · rcases native_ok known' with rfl | rfl
      · exact .inl (aarch64_shared isA isB isA' isB')
      · exact .inr rfl
  apply BitVec.eq_of_toNat_eq
  rcases same with rfl | rfl
  · exact Option.some.inj (isA'.symm.trans isB')
  · rw [isA] at isA'
    rw [isB] at isB'
    exact (Option.some.inj isA').symm.trans (Option.some.inj isB')

end Seccompy
