import Mathlib.Data.List.Nodup
import Mathlib.Data.List.Lex
import Mathlib.Data.Char
import S4BXI.Lib.OrderedMap

/-!
# Private copies of the libraries

Before it starts the application, every rank copies the libraries to privatize
under new names, and relinks its copies to each other.  A new name takes the
place of the old one in a binary, so it must have the length of the old one:
letters, the rank, and what follows the first seven characters of the old
name.  The copies of a run are apart as long as the ranks leave room in seven
characters and no two libraries agree in what the new names keep of them.
-/

namespace S4BXI

open Lib

/-- `std::string`, one character for one byte. -/
abbrev FileName := List Char

namespace Privatization

/-- `find_last_of`. -/
def findLastOf (separators : List Char) : FileName → Option Nat
  | [] => none
  | char :: rest =>
      match findLastOf separators rest with
      | some index => some (index + 1)
      | none => if char ∈ separators then some 0 else none

/-- The `libname` of a path, which stays empty without a separator. -/
def libname (libpath : FileName) : FileName :=
  match findLastOf ['/', '\\'] libpath with
  | some index => libpath.drop (index + 1)
  | none => []

/-- `substr(0, count)`, with an unsigned count. -/
def prefixOf (text : FileName) (count : UInt64) : FileName :=
  text.take count.toNat

/-- `to_string(my_rank)`. -/
def rankString (myRank : UInt32) : FileName := Nat.toDigits 10 myRank.toNat

/-- How many characters of a library's name are replaced. -/
def pad (libname : FileName) : Nat :=
  if libname.length < 7 then libname.length else 7

/-- The name of a rank's copy of a library. -/
def targetLib (simulationRandId libname : FileName) (myRank : UInt32) :
    FileName :=
  prefixOf simulationRandId
      (UInt64.ofNat (pad libname) - UInt64.ofNat (rankString myRank).length) ++
    rankString myRank ++ libname.drop (pad libname)

/-- A `sed` command, which replaces one name by another in a file. -/
structure Sed where
  pattern : FileName
  replacement : FileName
  file : FileName
deriving DecidableEq

/-- What a rank has done: `privatize_libs_renames`, the calls of
`s4bxi_copy_file` as pairs of a source and a target, and the `sed` commands. -/
structure Launch where
  renames : OrderedMap FileName FileName := .empty
  copies : List (FileName × FileName) := []
  relinked : List Sed := []

/-- `emplace`, which leaves the value of a known key. -/
def emplace (renames : OrderedMap FileName FileName)
    (name target : FileName) : OrderedMap FileName FileName :=
  match renames.find? name with
  | some _ => renames
  | none => renames.insert name target

/-- One turn of the loop over `privatize_libs_paths`. -/
def privatizeLib (simulationRandId targetExecutable : FileName)
    (myRank : UInt32) (launch : Launch) (libpath : FileName) : Launch :=
  if libname libpath = [] then launch
  else
    let target := targetLib simulationRandId (libname libpath) myRank
    { renames := emplace launch.renames (libname libpath) target
      copies := launch.copies ++ [(libpath, target)]
      relinked := launch.relinked ++
        [⟨libname libpath, target, targetExecutable⟩] }

/-- The two loops over `privatize_libs_renames`. -/
def relink (renames : OrderedMap FileName FileName) : List Sed :=
  renames.entries.flatMap fun relinkMe =>
    (renames.entries.filter fun targetLib =>
      decide (targetLib.2 ≠ relinkMe.2)).map fun targetLib =>
        ⟨targetLib.1, targetLib.2, relinkMe.2⟩

def privatizeLibs (simulationRandId targetExecutable : FileName)
    (privatizeLibsPaths : List FileName) (myRank : UInt32) : Launch :=
  privatizeLibsPaths.foldl
    (privatizeLib simulationRandId targetExecutable myRank) {}

/-- What a rank does before it loads its executable. -/
def launch (simulationRandId executable : FileName)
    (privatizeLibsPaths : List FileName) (myRank : UInt32) : Launch :=
  let targetExecutable :=
    executable ++ ['_'] ++ simulationRandId ++ ['_'] ++ rankString myRank ++
      ['.', 's', 'o']
  let copied := privatizeLibs simulationRandId targetExecutable
    privatizeLibsPaths myRank
  { copied with relinked := copied.relinked ++ relink copied.renames }

/-- The names of the libraries which get copies. -/
def libnames (privatizeLibsPaths : List FileName) : List FileName :=
  (privatizeLibsPaths.map libname).filter fun name => decide (name ≠ [])

/-- `simulation_rand_id` once `s4bxi_default_main` has drawn its letters. -/
structure Drawn (simulationRandId : FileName) : Prop where
  length : simulationRandId.length = 10
  letters : ∀ char ∈ simulationRandId, char.isAlpha = true

/-- Each rank has its own copy of each library: the new names fit into the
binaries, no copy is written twice, and a rank relinks its own copies only. -/
structure Private (simulationRandId executable : FileName)
    (privatizeLibsPaths : List FileName) (ranks : List UInt32) : Prop where
  sameLength : ∀ lib ∈ libnames privatizeLibsPaths, ∀ rank ∈ ranks,
    (targetLib simulationRandId lib rank).length = lib.length
  injective : ∀ lib ∈ libnames privatizeLibsPaths,
    ∀ other ∈ libnames privatizeLibsPaths, ∀ rank ∈ ranks,
    ∀ otherRank ∈ ranks,
    targetLib simulationRandId lib rank =
      targetLib simulationRandId other otherRank →
    lib = other ∧ rank = otherRank
  writtenOnce : (ranks.flatMap fun rank =>
    (launch simulationRandId executable privatizeLibsPaths rank).copies.map
      Prod.snd).Nodup
  relinked : ∀ rank ∈ ranks, ∀ sed ∈
    relink (launch simulationRandId executable privatizeLibsPaths rank).renames,
    ∃ lib ∈ libnames privatizeLibsPaths,
    ∃ other ∈ libnames privatizeLibsPaths,
      lib ≠ other ∧ sed = ⟨other, targetLib simulationRandId other rank,
        targetLib simulationRandId lib rank⟩

/-- The ranks fit into what is replaced of each name, and two libraries differ
in their lengths or in what is kept of their names. -/
structure Separable (privatizeLibsPaths : List FileName)
    (ranks : List UInt32) : Prop where
  fits : ∀ lib ∈ libnames privatizeLibsPaths, ∀ rank ∈ ranks,
    (rankString rank).length ≤ min 7 lib.length
  differ : ∀ lib ∈ libnames privatizeLibsPaths,
    ∀ other ∈ libnames privatizeLibsPaths, ranks ≠ [] →
    lib.length = other.length → lib.drop 7 = other.drop 7 → lib = other

section Names

theorem pad_eq (lib : FileName) : pad lib = min 7 lib.length := by
  unfold pad
  split <;> omega

theorem drop_pad (lib : FileName) : lib.drop (pad lib) = lib.drop 7 := by
  by_cases short : lib.length < 7
  · rw [pad, if_pos short, List.drop_length,
      List.drop_eq_nil_of_le (Nat.le_of_lt short)]
  · rw [pad, if_neg short]

theorem rankString_length_le (rank : UInt32) :
    (rankString rank).length ≤ 10 := by
  apply (Nat.length_toDigits_le_iff (by decide) (by decide)).mpr
  have bounded : rank.toNat < 2 ^ 32 := rank.toNat_lt
  omega

theorem rankString_injective {rank other : UInt32}
    (equal : rankString rank = rankString other) : rank = other := by
  have parsed :=
    congrArg (fun digits => Nat.ofDigitChars 10 digits 0) equal
  simp only [rankString, Nat.ofDigitChars_ten_toDigits] at parsed
  exact UInt32.toNat.inj parsed

theorem isDigit_of_mem_rankString {rank : UInt32} {char : Char}
    (member : char ∈ rankString rank) : char.isDigit = true :=
  Nat.isDigit_of_mem_toDigits (by decide) (by decide) member

/-- The unsigned subtraction wraps around for a rank with too many digits. -/
theorem padding_toNat (lib : FileName) (rank : UInt32) :
    (UInt64.ofNat (pad lib) -
      UInt64.ofNat (rankString rank).length).toNat =
    if (rankString rank).length ≤ pad lib then
      pad lib - (rankString rank).length
    else 2 ^ 64 + pad lib - (rankString rank).length := by
  have digits := rankString_length_le rank
  have padding : pad lib ≤ 7 := pad_eq lib ▸ Nat.min_le_left 7 lib.length
  rw [UInt64.toNat_sub, UInt64.toNat_ofNat', UInt64.toNat_ofNat']
  split <;> omega

theorem targetLib_length {simulationRandId : FileName}
    (drawn : Drawn simulationRandId) (lib : FileName) (rank : UInt32) :
    (targetLib simulationRandId lib rank).length = lib.length ↔
      (rankString rank).length ≤ pad lib := by
  have padding := pad_eq lib
  have drawnLength := drawn.length
  rw [targetLib, prefixOf, padding_toNat]
  simp only [List.length_append, List.length_take, List.length_drop,
    drawnLength]
  split <;> omega

/-- The letters in front of a rank end where its digits begin. -/
theorem digits_of_letters {letters digits : FileName}
    (noDigits : ∀ char ∈ letters, char.isAlpha = true)
    (allDigits : ∀ char ∈ digits, char.isDigit = true) :
    (letters ++ digits).filter Char.isDigit = digits := by
  have none : letters.filter Char.isDigit = [] := by
    apply List.filter_eq_nil_iff.mpr
    intro char member digit
    have alpha := noDigits char member
    simp only [Char.isAlpha, Char.isUpper, Char.isLower, Char.isDigit,
      Bool.or_eq_true, Bool.and_eq_true, decide_eq_true_eq, ge_iff_le,
      UInt32.le_iff_toNat_le] at alpha digit
    have upper : 'A'.val.toNat = 65 := rfl
    have lower : 'a'.val.toNat = 97 := rfl
    have nine : '9'.val.toNat = 57 := rfl
    omega
  rw [List.filter_append, none, List.nil_append]
  exact List.filter_eq_self.mpr allDigits

/-- A new name determines the rank, and what it keeps of the old name. -/
theorem targetLib_eq_iff {simulationRandId : FileName}
    (drawn : Drawn simulationRandId) {lib other : FileName}
    {rank otherRank : UInt32}
    (fits : (rankString rank).length ≤ pad lib)
    (otherFits : (rankString otherRank).length ≤ pad other) :
    targetLib simulationRandId lib rank =
        targetLib simulationRandId other otherRank ↔
      rank = otherRank ∧ lib.length = other.length ∧
        lib.drop 7 = other.drop 7 := by
  constructor
  · intro equal
    have length : lib.length = other.length := by
      rw [← (targetLib_length drawn lib rank).mpr fits, equal]
      exact (targetLib_length drawn other otherRank).mpr otherFits
    have samePad : pad lib = pad other := by
      rw [pad_eq, pad_eq, length]
    have padding := pad_eq other
    have drawnLength := drawn.length
    rw [samePad] at fits
    simp only [targetLib, prefixOf, padding_toNat, samePad, if_pos fits,
      if_pos otherFits] at equal
    obtain ⟨front, back⟩ := List.append_inj equal (by
      simp only [List.length_append, List.length_take, drawnLength]
      omega)
    refine ⟨?_, length, ?_⟩
    · apply rankString_injective
      have letters : ∀ count, ∀ char ∈ simulationRandId.take count,
          char.isAlpha = true :=
        fun count char member =>
          drawn.letters char (List.mem_of_mem_take member)
      have digits := congrArg (List.filter Char.isDigit) front
      rw [digits_of_letters (letters _) fun _ => isDigit_of_mem_rankString,
        digits_of_letters (letters _) fun _ => isDigit_of_mem_rankString]
        at digits
      exact digits
    · rw [← drop_pad, ← drop_pad, samePad]
      exact back
  · rintro ⟨rfl, length, kept⟩
    have samePad : pad lib = pad other := by
      rw [pad_eq, pad_eq, length]
    rw [targetLib, targetLib, drop_pad, drop_pad, kept, samePad]

end Names

section Loops

variable {simulationRandId executable : FileName} {rank : UInt32}

/-- The copies made by the loop over the paths. -/
theorem privatizeLibs_copies (targetExecutable : FileName)
    (paths : List FileName) (start : Launch) :
    (paths.foldl (privatizeLib simulationRandId targetExecutable rank)
        start).copies.map Prod.snd =
      start.copies.map Prod.snd ++ (libnames paths).map fun lib =>
        targetLib simulationRandId lib rank := by
  induction paths generalizing start with
  | nil => simp [libnames]
  | cons path rest induction =>
      rw [List.foldl_cons, induction]
      by_cases skipped : libname path = []
      · simp [privatizeLib, libnames, skipped]
      · simp [privatizeLib, libnames, skipped]

theorem launch_copies (paths : List FileName) :
    (launch simulationRandId executable paths rank).copies.map Prod.snd =
      (libnames paths).map fun lib => targetLib simulationRandId lib rank := by
  exact privatizeLibs_copies _ paths {}

/-- An entry of `renames` is a library and its copy. -/
def Renames (simulationRandId : FileName) (rank : UInt32)
    (names : List FileName) (renames : OrderedMap FileName FileName) : Prop :=
  ∀ entry ∈ renames.entries, entry.1 ∈ names ∧
    entry.2 = targetLib simulationRandId entry.1 rank

theorem Renames.emplace {names : List FileName}
    {renames : OrderedMap FileName FileName}
    (known : Renames simulationRandId rank names renames) {name : FileName}
    (member : name ∈ names) :
    Renames simulationRandId rank names
      (emplace renames name (targetLib simulationRandId name rank)) := by
  unfold Privatization.emplace
  cases renames.find? name with
  | some value => exact known
  | none =>
      intro entry inserted
      rcases OrderedMap.mem_insert.mp inserted with rfl | ⟨old, _⟩
      · exact ⟨member, rfl⟩
      · exact known entry old

theorem libname_mem_libnames {paths : List FileName} {path : FileName}
    (member : path ∈ paths) (named : libname path ≠ []) :
    libname path ∈ libnames paths := by
  apply List.mem_filter.mpr
  exact ⟨List.mem_map_of_mem member, decide_eq_true named⟩

theorem Renames.privatizeLibs (targetExecutable : FileName)
    {names : List FileName} {paths : List FileName}
    (listed : ∀ path ∈ paths, libname path ≠ [] → libname path ∈ names)
    {start : Launch}
    (known : Renames simulationRandId rank names start.renames) :
    Renames simulationRandId rank names
      (paths.foldl (privatizeLib simulationRandId targetExecutable rank)
        start).renames := by
  induction paths generalizing start with
  | nil => exact known
  | cons path rest induction =>
      rw [List.foldl_cons]
      apply induction
      · intro later member
        exact listed later (List.mem_cons_of_mem _ member)
      · by_cases skipped : libname path = []
        · rw [privatizeLib, if_pos skipped]
          exact known
        · rw [privatizeLib, if_neg skipped]
          exact known.emplace (listed path List.mem_cons_self skipped)

theorem launch_renames (paths : List FileName) :
    Renames simulationRandId rank (libnames paths)
      (launch simulationRandId executable paths rank).renames := by
  apply Renames.privatizeLibs
  · intro path member named
    exact libname_mem_libnames member named
  · intro entry member
    cases member

/-- A rank relinks its copies to each other. -/
theorem relink_own {names : List FileName}
    {renames : OrderedMap FileName FileName}
    (known : Renames simulationRandId rank names renames) {sed : Sed}
    (member : sed ∈ relink renames) :
    ∃ lib ∈ names, ∃ other ∈ names, lib ≠ other ∧
      sed = ⟨other, targetLib simulationRandId other rank,
        targetLib simulationRandId lib rank⟩ := by
  obtain ⟨relinkMe, relinked, found⟩ := List.mem_flatMap.mp member
  obtain ⟨target, kept, rfl⟩ := List.mem_map.mp found
  obtain ⟨listed, different⟩ := List.mem_filter.mp kept
  obtain ⟨named, copy⟩ := known relinkMe relinked
  obtain ⟨otherNamed, otherCopy⟩ := known target listed
  refine ⟨relinkMe.1, named, target.1, otherNamed, ?_, ?_⟩
  · intro same
    apply of_decide_eq_true different
    rw [otherCopy, copy, same]
  · rw [otherCopy, copy]

end Loops

section Distinctness

variable {simulationRandId : FileName} {paths : List FileName}
  {ranks : List UInt32}

theorem Separable.targetLib_injective (drawn : Drawn simulationRandId)
    (separable : Separable paths ranks) {lib other : FileName}
    (named : lib ∈ libnames paths) (otherNamed : other ∈ libnames paths)
    {rank otherRank : UInt32} (member : rank ∈ ranks)
    (otherMember : otherRank ∈ ranks)
    (equal : targetLib simulationRandId lib rank =
      targetLib simulationRandId other otherRank) :
    lib = other ∧ rank = otherRank := by
  have fits := separable.fits lib named rank member
  have otherFits := separable.fits other otherNamed otherRank otherMember
  rw [← pad_eq] at fits otherFits
  obtain ⟨sameRank, length, kept⟩ :=
    (targetLib_eq_iff drawn fits otherFits).mp equal
  exact ⟨separable.differ lib named other otherNamed
    (List.ne_nil_of_mem member) length kept, sameRank⟩

/-- No file is written twice when the new names are distinct. -/
theorem copies_nodup {executable : FileName}
    (distinctNames : (libnames paths).Nodup) (distinctRanks : ranks.Nodup)
    (injective : ∀ lib ∈ libnames paths, ∀ other ∈ libnames paths,
      ∀ rank ∈ ranks, ∀ otherRank ∈ ranks,
      targetLib simulationRandId lib rank =
        targetLib simulationRandId other otherRank →
      lib = other ∧ rank = otherRank) :
    (ranks.flatMap fun rank =>
      (launch simulationRandId executable paths rank).copies.map
        Prod.snd).Nodup := by
  simp only [launch_copies]
  rw [List.nodup_flatMap]
  constructor
  · intro rank member
    apply List.Nodup.map_on _ distinctNames
    intro lib named other otherNamed equal
    exact (injective lib named other otherNamed rank member rank member
      equal).1
  · apply distinctRanks.imp_of_mem
    intro rank otherRank member otherMember different
    change List.Disjoint _ _
    intro target first second
    obtain ⟨lib, named, rfl⟩ := List.mem_map.mp first
    obtain ⟨other, otherNamed, equal⟩ := List.mem_map.mp second
    exact different (injective lib named other otherNamed rank member
      otherRank otherMember equal.symm).2

def randomLetters : FileName := "AbCdEfGhIj".toList

theorem randomLetters_drawn : Drawn randomLetters :=
  ⟨by decide, List.all_eq_true.mp (by decide)⟩

end Distinctness

end Privatization

end S4BXI
