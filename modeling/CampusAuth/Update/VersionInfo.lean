import CampusAuth.Lib.Parse
import CampusAuth.Lib.Utf16

/- The version in the resources of a Windows program (`updater/version_info.rs`): the sections and
   the resource directories of the image lead to the block with the version, which holds a number
   of fixed form and nested blocks of texts. All offsets come from the file.

   Slices that the source takes without asking are faults here when they are out of range; the
   readers never come to one (`findVersionResource_inBounds`, `parseProductVersion_inBounds`). -/
namespace CampusAuth.Update
open Lib Lib.Wire Lib.Wire.Parse

abbrev Bytes := List UInt8

def u16le (data : Bytes) (off : Nat) : Parse Nat := do
  let b ← ofOption (getRange data off (off + 2))
  pure (fromLe [← elementAt b 0, ← elementAt b 1])

def u32le (data : Bytes) (off : Nat) : Parse Nat := do
  let b ← ofOption (getRange data off (off + 4))
  pure (fromLe [← elementAt b 0, ← elementAt b 1, ← elementAt b 2, ← elementAt b 3])

def align4 (off : Nat) : Nat := (off + 3) / 4 * 4

/-- The units up to a zero; at most 2048. -/
def readWideLoop (data : Bytes) (units : List Nat) (i : Nat) : Parse Text :=
  if _h : units.length > 2048 ∨ i + 2 > data.length then failure
  else do
    let unit ← u16le data i
    if unit = 0 then pure (fromUtf16Lossy units)
    else readWideLoop data (units ++ [unit]) (i + 2)
termination_by data.length - i
decreasing_by omega

def readWideStr (data : Bytes) (off : Nat) : Parse Text := readWideLoop data [] off

def readUnits (data : Bytes) (off : Nat) : Nat → Parse (List Nat)
  | 0 => pure []
  | words + 1 => do
    let unit ← u16le data off
    let rest ← readUnits data (off + 2) words
    pure (unit :: rest)

def readWideN (data : Bytes) (off words : Nat) : Parse Text := do
  let units ← readUnits data off words
  pure (fromUtf16Lossy units)

/-! ## The image -/

/-- The sections from the `i`th on, `n` of them. -/
def rvaLoop (data : Bytes) (sectionsOff rva i : Nat) : Nat → Parse Nat
  | 0 => failure
  | n + 1 => do
    let s := sectionsOff + i * 40
    let vsize ← u32le data (s + 8)
    let va ← u32le data (s + 12)
    let rsize ← u32le data (s + 16)
    let raw ← u32le data (s + 20)
    if va = 0 then rvaLoop data sectionsOff rva (i + 1) n
    else if va ≤ rva ∧ rva < va + max vsize rsize then
      if raw + (rva - va) < data.length then pure (raw + (rva - va)) else failure
    else rvaLoop data sectionsOff rva (i + 1) n

def rvaToOffset (data : Bytes) (sectionsOff numSections rva : Nat) : Parse Nat :=
  rvaLoop data sectionsOff rva 0 numSections

/-- The entries of a directory from the `i`th on, `n` of them. -/
def findEntryLoop (data : Bytes) (dirOff wantId i : Nat) : Nat → Parse Nat
  | 0 => failure
  | n + 1 => do
    let e := dirOff + 16 + i * 8
    let name ← u32le data e
    -- The high bit marks a name that is a text.
    if name < 0x80000000 ∧ name % 0x10000 = wantId then do
      let o ← u32le data (e + 4)
      pure (o % 0x80000000)
    else findEntryLoop data dirOff wantId (i + 1) n

def findResourceEntryById (data : Bytes) (dirOff wantId : Nat) : Parse Nat := do
  let named ← u16le data (dirOff + 12)
  let ids ← u16le data (dirOff + 14)
  findEntryLoop data dirOff wantId 0 (named + ids)

/-- Whether the first numbered entry is a directory, and where it leads. -/
def firstResourceEntry (data : Bytes) (dirOff : Nat) : Parse (Bool × Nat) := do
  let named ← u16le data (dirOff + 12)
  let ids ← u16le data (dirOff + 14)
  if ids = 0 then failure
  else do
    let off ← u32le data (dirOff + 16 + named * 8 + 4)
    pure (0x80000000 ≤ off, off % 0x80000000)

/-- Where the number of data directories stands, and the directories. -/
def dataDirectories (opt magic : Nat) : Option (Nat × Nat) :=
  if magic = 0x10B then some (opt + 92, opt + 96)
  else if magic = 0x20B then some (opt + 108, opt + 112)
  else none

/-- What the resource section says of the version. -/
def readResource (data : Bytes) (sections numSections resRva : Nat) : Parse Bytes := do
  let resOff ← rvaToOffset data sections numSections resRva
  let l1 ← findResourceEntryById data resOff 16
  let (sub1, l3Rel) ← firstResourceEntry data (resOff + l1)
  if !sub1 then failure
  else do
    let (isSubdir, dataRel) ← firstResourceEntry data (resOff + l3Rel)
    if isSubdir then failure
    else do
      let entry := resOff + dataRel
      let dataRva ← u32le data entry
      let size ← u32le data (entry + 4)
      let start ← rvaToOffset data sections numSections dataRva
      ofOption (getRange data start (start + size))

def findVersionResource (data : Bytes) : Parse Bytes :=
  if data.length < 0x40 then failure
  else do
    let magic ← sliceOf data 0 2
    if magic ≠ [0x4D, 0x5A] then failure
    else do
      let peOff ← u32le data 0x3C
      if data.length < peOff + 24 then failure
      else do
        let signature ← sliceOf data peOff (peOff + 4)
        if signature ≠ [0x50, 0x45, 0, 0] then failure
        else do
          let coff := peOff + 4
          let numSections ← u16le data (coff + 2)
          let optSize ← u16le data (coff + 16)
          let opt := coff + 20
          let optMagic ← u16le data opt
          let (numDirsOff, dirsOff) ← ofOption (dataDirectories opt optMagic)
          let numDirs ← u32le data numDirsOff
          if numDirs < 3 then failure
          else do
            let resRva ← u32le data (dirsOff + 2 * 8)
            if resRva = 0 then failure
            else readResource data (opt + optSize) numSections resRva

/-! ## The block -/

/-- The value of a String block of the key, when it is a text. -/
def readValue (vs : Bytes) (wtype : Nat) (key : Text) (valueOff wvalue : Nat) :
    Parse (Option Text) :=
  if wtype = 1 ∧ key ≠ [] ∧ valueOff < vs.length ∧ 0 < wvalue then
    attempt (readWideN vs valueOff (wvalue - 1))
  else pure none

/-- The String blocks from `off` on; the first version of either name counts. -/
def scanStrings (vs : Bytes) (stop off : Nat) (product file : Option Text) :
    Parse (Option Text × Option Text) :=
  if _h : off + 6 ≤ stop ∧ off + 6 ≤ vs.length then do
    let wlen ← getD (u16le vs off) 0
    if _hlen : wlen = 0 then pure (product, file)
    else do
      let wtype ← getD (u16le vs (off + 4)) 0
      let key ← getD (readWideStr vs (off + 6)) []
      let wvalue ← getD (u16le vs (off + 2)) 0
      let val ← readValue vs wtype key (align4 (off + 6 + (key.length + 1) * 2)) wvalue
      scanStrings vs stop (align4 (off + wlen))
        (if key = "ProductVersion".toList then product.or val else product)
        (if key = "FileVersion".toList then file.or val else file)
  else pure (product, file)
termination_by vs.length - off
decreasing_by
  unfold align4
  omega

def scanStringTable (vs : Bytes) (tableOff stop : Nat) : Parse (Option Text × Option Text) := do
  let tableKey ← getD (readWideStr vs (tableOff + 6)) []
  scanStrings vs stop (align4 (tableOff + 6 + (tableKey.length + 1) * 2)) none none

def scanStringFileInfo (vs : Bytes) (off : Nat) (fileVersion : Option Text) : Parse Text :=
  if _h : off + 6 ≤ vs.length then do
    let wlen ← u16le vs off
    if _hlen : wlen = 0 then ofOption fileVersion
    else do
      let key ← readWideStr vs (off + 6)
      if key = "StringFileInfo".toList then do
        let found ← scanStringTable vs (align4 (off + 6 + (key.length + 1) * 2)) (off + wlen)
        match found with
        | (some product, _) => pure product
        | (none, file) => scanStringFileInfo vs (align4 (off + wlen)) (fileVersion.or file)
      else scanStringFileInfo vs (align4 (off + wlen)) fileVersion
  else ofOption fileVersion
termination_by vs.length - off
decreasing_by
  all_goals
    unfold align4
    omega

/-- The number of fixed form. -/
def numericVersion (vs : Bytes) (valueLen : Nat) : Parse (Option Text) :=
  if 52 ≤ valueLen ∧ 40 + 52 ≤ vs.length then do
    let signature ← u32le vs 40
    if signature = 0xFEEF04BD then do
      let ms ← u32le vs (40 + 8)
      let ls ← u32le vs (40 + 12)
      pure (some (toString (ms / 0x10000) ++ "." ++ toString (ms % 0x10000) ++ "." ++
        toString (ls / 0x10000)).toList)
    else pure none
  else pure none

def parseProductVersion (vs : Bytes) : Parse Text :=
  if vs.length < 40 then failure
  else do
    let key ← readWideStr vs 6
    if key ≠ "VS_VERSION_INFO".toList then failure
    else do
      let valueLen ← u16le vs 2
      let numeric ← numericVersion vs valueLen
      Parse.or (scanStringFileInfo vs (align4 (40 + valueLen)) none) numeric

/-- `extract_exe_version` on the bytes of the file, on Windows. -/
def extractExeVersion (data : Bytes) : Parse Text := do
  let resource ← findVersionResource data
  parseProductVersion resource

/-! ## No access out of range -/

theorem u16le_inBounds (data : Bytes) (off : Nat) : InBounds (u16le data off) := by
  unfold u16le
  cases hb : getRange data off (off + 2) with
  | none => exact inBounds_failure
  | some b =>
    have hlen := length_of_getRange hb
    exact (inBounds_elementAt (by omega)).bind fun _ => (inBounds_elementAt (by omega)).bind fun _ =>
      inBounds_pure _

theorem u32le_inBounds (data : Bytes) (off : Nat) : InBounds (u32le data off) := by
  unfold u32le
  cases hb : getRange data off (off + 4) with
  | none => exact inBounds_failure
  | some b =>
    have hlen := length_of_getRange hb
    refine (inBounds_elementAt (by omega)).bind fun _ => (inBounds_elementAt (by omega)).bind fun _ => ?_
    exact (inBounds_elementAt (by omega)).bind fun _ => (inBounds_elementAt (by omega)).bind fun _ =>
      inBounds_pure _

theorem readWideLoop_inBounds (data : Bytes) (units : List Nat) (i : Nat) :
    InBounds (readWideLoop data units i) := by
  induction units, i using readWideLoop.induct data with
  | case1 units i h =>
    unfold readWideLoop
    rw [dif_pos h]
    exact inBounds_failure
  | case2 units i h ih =>
    unfold readWideLoop
    rw [dif_neg h]
    exact (u16le_inBounds data i).bind fun unit => .ite (fun _ => inBounds_pure _) fun _ => ih unit

theorem readWideStr_inBounds (data : Bytes) (off : Nat) : InBounds (readWideStr data off) :=
  readWideLoop_inBounds data [] off

theorem readUnits_inBounds (data : Bytes) : ∀ words off, InBounds (readUnits data off words)
  | 0, _ => inBounds_pure _
  | words + 1, off => (u16le_inBounds data off).bind fun _ =>
      (readUnits_inBounds data words (off + 2)).bind fun _ => inBounds_pure _

theorem readWideN_inBounds (data : Bytes) (off words : Nat) : InBounds (readWideN data off words) :=
  (readUnits_inBounds data words off).bind fun _ => inBounds_pure _

theorem rvaLoop_inBounds (data : Bytes) (sectionsOff rva : Nat) :
    ∀ n i, InBounds (rvaLoop data sectionsOff rva i n)
  | 0, _ => inBounds_failure
  | n + 1, i => by
    refine (u32le_inBounds data _).bind fun _ => (u32le_inBounds data _).bind fun _ => ?_
    refine (u32le_inBounds data _).bind fun _ => (u32le_inBounds data _).bind fun _ => ?_
    refine .ite (fun _ => rvaLoop_inBounds data sectionsOff rva n (i + 1)) fun _ => ?_
    refine .ite (fun _ => ?_) fun _ => rvaLoop_inBounds data sectionsOff rva n (i + 1)
    exact .ite (fun _ => inBounds_pure _) fun _ => inBounds_failure

theorem findEntryLoop_inBounds (data : Bytes) (dirOff wantId : Nat) :
    ∀ n i, InBounds (findEntryLoop data dirOff wantId i n)
  | 0, _ => inBounds_failure
  | n + 1, i => by
    refine (u32le_inBounds data _).bind fun _ => ?_
    refine .ite (fun _ => ?_) fun _ => findEntryLoop_inBounds data dirOff wantId n (i + 1)
    exact (u32le_inBounds data _).bind fun _ => inBounds_pure _

theorem findResourceEntryById_inBounds (data : Bytes) (dirOff wantId : Nat) :
    InBounds (findResourceEntryById data dirOff wantId) :=
  (u16le_inBounds data _).bind fun _ => (u16le_inBounds data _).bind fun _ =>
    findEntryLoop_inBounds data dirOff wantId _ 0

theorem firstResourceEntry_inBounds (data : Bytes) (dirOff : Nat) :
    InBounds (firstResourceEntry data dirOff) := by
  refine (u16le_inBounds data _).bind fun _ => (u16le_inBounds data _).bind fun _ => ?_
  exact .ite (fun _ => inBounds_failure) fun _ => (u32le_inBounds data _).bind fun _ => inBounds_pure _

theorem readResource_inBounds (data : Bytes) (sections numSections resRva : Nat) :
    InBounds (readResource data sections numSections resRva) := by
  refine (rvaLoop_inBounds data sections resRva numSections 0).bind fun resOff => ?_
  refine (findResourceEntryById_inBounds data resOff 16).bind fun l1 => ?_
  refine (firstResourceEntry_inBounds data (resOff + l1)).bind fun (sub1, l3Rel) => ?_
  refine .ite (fun _ => inBounds_failure) fun _ => ?_
  refine (firstResourceEntry_inBounds data (resOff + l3Rel)).bind fun (isSubdir, dataRel) => ?_
  refine .ite (fun _ => inBounds_failure) fun _ => ?_
  refine (u32le_inBounds data _).bind fun dataRva => (u32le_inBounds data _).bind fun size => ?_
  exact (rvaLoop_inBounds data sections dataRva numSections 0).bind fun _ => inBounds_ofOption _

/-- Whatever the file, the reader of the image ends without an access out of range. -/
theorem findVersionResource_inBounds (data : Bytes) : InBounds (findVersionResource data) := by
  refine .ite (fun _ => inBounds_failure) fun hlen => ?_
  refine (inBounds_sliceOf (by omega) (by omega)).bind fun _ => .ite (fun _ => inBounds_failure) fun _ => ?_
  refine (u32le_inBounds data _).bind fun peOff => .ite (fun _ => inBounds_failure) fun hpe => ?_
  refine (inBounds_sliceOf (by omega) (by omega)).bind fun _ => .ite (fun _ => inBounds_failure) fun _ => ?_
  refine (u16le_inBounds data _).bind fun numSections => (u16le_inBounds data _).bind fun optSize => ?_
  refine (u16le_inBounds data _).bind fun _ => (inBounds_ofOption _).bind fun (numDirsOff, dirsOff) => ?_
  refine (u32le_inBounds data _).bind fun _ => .ite (fun _ => inBounds_failure) fun _ => ?_
  refine (u32le_inBounds data _).bind fun resRva => .ite (fun _ => inBounds_failure) fun _ => ?_
  exact readResource_inBounds data _ _ _

theorem readValue_inBounds (vs : Bytes) (wtype : Nat) (key : Text) (valueOff wvalue : Nat) :
    InBounds (readValue vs wtype key valueOff wvalue) :=
  .ite (fun _ => (readWideN_inBounds vs _ _).attempt) fun _ => inBounds_pure _

theorem scanStrings_inBounds (vs : Bytes) (stop off : Nat) (product file : Option Text) :
    InBounds (scanStrings vs stop off product file) := by
  induction off, product, file using scanStrings.induct vs stop with
  | case1 off product file h ih =>
    unfold scanStrings
    rw [dif_pos h]
    refine ((u16le_inBounds vs off).getD 0).bind fun wlen => .dite (fun _ => inBounds_pure _) fun hlen => ?_
    refine ((u16le_inBounds vs (off + 4)).getD 0).bind fun wtype => ?_
    refine ((readWideStr_inBounds vs (off + 6)).getD []).bind fun key => ?_
    refine ((u16le_inBounds vs (off + 2)).getD 0).bind fun wvalue => ?_
    refine (readValue_inBounds vs wtype key _ wvalue).bind fun val => ?_
    simpa only [dite_eq_ite] using ih wlen hlen key val
  | case2 off product file h =>
    unfold scanStrings
    rw [dif_neg h]
    exact inBounds_pure _

theorem scanStringTable_inBounds (vs : Bytes) (tableOff stop : Nat) :
    InBounds (scanStringTable vs tableOff stop) :=
  ((readWideStr_inBounds vs _).getD []).bind fun _ => scanStrings_inBounds vs stop _ none none

theorem scanStringFileInfo_inBounds (vs : Bytes) (off : Nat) (fileVersion : Option Text) :
    InBounds (scanStringFileInfo vs off fileVersion) := by
  induction off, fileVersion using scanStringFileInfo.induct vs with
  | case1 off fileVersion h ihInfo ihOther =>
    unfold scanStringFileInfo
    rw [dif_pos h]
    refine (u16le_inBounds vs off).bind fun wlen => .dite (fun _ => inBounds_ofOption _) fun hlen => ?_
    refine (readWideStr_inBounds vs (off + 6)).bind fun key => .ite (fun _ => ?_) fun _ =>
      ihOther wlen hlen
    refine (scanStringTable_inBounds vs _ _).bind fun found => ?_
    obtain ⟨product, file⟩ := found
    cases product with
    | none => exact ihInfo wlen hlen file
    | some product => exact inBounds_pure product
  | case2 off fileVersion h =>
    unfold scanStringFileInfo
    rw [dif_neg h]
    exact inBounds_ofOption fileVersion

theorem numericVersion_inBounds (vs : Bytes) (valueLen : Nat) : InBounds (numericVersion vs valueLen) := by
  refine .ite (fun _ => (u32le_inBounds vs _).bind fun _ => .ite (fun _ => ?_) fun _ => inBounds_pure _)
    fun _ => inBounds_pure _
  exact (u32le_inBounds vs _).bind fun _ => (u32le_inBounds vs _).bind fun _ => inBounds_pure _

/-- Whatever the block, its reader ends without an access out of range. -/
theorem parseProductVersion_inBounds (vs : Bytes) : InBounds (parseProductVersion vs) := by
  refine .ite (fun _ => inBounds_failure) fun _ => ?_
  refine (readWideStr_inBounds vs 6).bind fun _ => .ite (fun _ => inBounds_failure) fun _ => ?_
  refine (u16le_inBounds vs 2).bind fun valueLen => (numericVersion_inBounds vs valueLen).bind fun numeric => ?_
  exact (scanStringFileInfo_inBounds vs _ none).or numeric

theorem extractExeVersion_inBounds (data : Bytes) : InBounds (extractExeVersion data) :=
  (findVersionResource_inBounds data).bind parseProductVersion_inBounds

end CampusAuth.Update
