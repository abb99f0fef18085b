import CampusAuth.Lib.Numerals
import CampusAuth.Update.VersionInfo

/- The builder beside the reader (`build_minimal_pe_with_version`): an image with one section, in
   it the three directories that lead to a block with the version. What is built is laid out as a
   list of pieces; the reader finds each of its fields in the place of a piece
   (`extract_built`). -/
namespace CampusAuth.Update
open Lib Lib.Wire Lib.Wire.Parse

/-! ## The builder -/

/-- `Vec::resize` with zeros -/
def resize (v : Bytes) (n : Nat) : Bytes := v.take n ++ List.replicate (n - v.length) 0

/-- The length is put in when the block is complete. -/
def putLength (v : Bytes) : Bytes := le 2 v.length ++ v.drop 2

def wide (text : Text) : Bytes := (encodeUtf16 text).flatMap (le 2)

def nul : Char := Char.ofNat 0

/-- A block of texts: its head and key, and what it holds behind them. -/
def textBlock (valueLength : Nat) (key : String) (content : Bytes) : Bytes :=
  let head := le 2 0 ++ le 2 valueLength ++ le 2 1 ++ wide (key.toList ++ [nul])
  putLength (resize head (align4 head.length) ++ content)

def stringBlock (version : Text) : Bytes :=
  textBlock (version.length + 1) "ProductVersion" (wide (version ++ [nul]))

def stringTable (version : Text) : Bytes := textBlock 0 "040904b0" (stringBlock version)

def stringFileInfo (version : Text) : Bytes := textBlock 0 "StringFileInfo" (stringTable version)

/-- The `i`th number of a version. -/
def versionNumber (version : Text) (i : Nat) : Nat :=
  (((version.splitOn '.').map fun p => (parseUnsigned (2 ^ 64) p).getD 0)[i]?.getD 0) % 0x10000

def fixedInfo (version : Text) : Bytes :=
  let ms := versionNumber version 0 * 0x10000 + versionNumber version 1
  let ls := versionNumber version 2 * 0x10000
  le 4 0xFEEF04BD ++ le 4 0 ++ le 4 ms ++ le 4 ls ++ le 4 ms ++ le 4 ls

def buildVersionInfoBlob (version : Text) (includeStringTable : Bool) : Bytes :=
  let vs := le 2 0 ++ le 2 52 ++ le 2 0 ++ wide ("VS_VERSION_INFO".toList ++ [nul])
  let vs := resize (resize vs 40 ++ fixedInfo version) 92
  putLength (if includeStringTable then vs ++ stringFileInfo version else vs)

def pushDir (entries : List (Nat × Nat)) : Bytes :=
  le 4 0 ++ le 4 0 ++ le 2 0 ++ le 2 0 ++ le 2 0 ++ le 2 entries.length ++
    entries.flatMap fun (id, offset) => le 4 id ++ le 4 offset

def resRva : Nat := 0x2000

def secRaw : Nat := 0x400

/-- The head of the image, up to the table of sections. -/
def imageHead (resSize : Nat) : Bytes :=
  let pe := resize (resize [0x4D, 0x5A] 0x3C ++ le 4 0x40) 0x40
  let pe := pe ++ [0x50, 0x45, 0, 0] ++ le 2 0x8664 ++ le 2 1 ++ le 4 0 ++ le 4 0 ++ le 4 0 ++
    le 2 240 ++ le 2 0x22
  let optStart := pe.length
  let pe := resize (pe ++ le 2 0x20B) (optStart + 108) ++ le 4 16
  let pe := resize pe (optStart + 112 + 2 * 8) ++ le 4 resRva ++ le 4 resSize
  resize pe (optStart + 240)

/-- The entry of `.rsrc` in the table of sections. -/
def resSection (resSize : Nat) : Bytes :=
  [0x2E, 0x72, 0x73, 0x72, 0x63, 0, 0, 0] ++ le 4 resSize ++ le 4 resRva ++ le 4 resSize ++
    le 4 secRaw ++ List.replicate 16 0

def resources (vs : Bytes) : Bytes :=
  pushDir [(16, 0x80000000 + 0x18)] ++ pushDir [(1, 0x80000000 + 0x30)] ++ pushDir [(0x409, 0x48)] ++
    le 4 (resRva + 0x58) ++ le 4 vs.length ++ le 4 0 ++ le 4 0 ++ vs

def buildMinimalPeWithVersion (version : Text) (includeStringTable : Bool) : Bytes :=
  let vs := buildVersionInfoBlob version includeStringTable
  let resSize := 0x80 + vs.length
  resize (imageHead resSize ++ resSection resSize) secRaw ++ resources vs

/-! ## Reading pieces -/

theorem resize_of_le {v : Bytes} {n : Nat} (h : v.length ≤ n) :
    resize v n = v ++ List.replicate (n - v.length) 0 := by
  rw [resize, List.take_of_length_le h]

theorem resize_to {v : Bytes} {m n : Nat} (pad : Nat) (h : v.length = m) (hn : m + pad = n) :
    resize v n = v ++ List.replicate pad 0 := by
  subst hn h
  rw [resize_of_le (Nat.le_add_right _ _), Nat.add_sub_cancel_left]

/-- A piece of a buffer stands behind the pieces before it. -/
theorem holds_flatten {data : Bytes} {pieces : List Bytes} (hdata : data = pieces.flatten) {k o : Nat}
    {piece : Bytes} (hpiece : pieces[k]? = some piece)
    (ho : ((pieces.take k).map List.length).sum = o) : Holds data o piece := by
  obtain ⟨hk, rfl⟩ := List.getElem?_eq_some_iff.mp hpiece
  refine ⟨(pieces.take k).flatten, (pieces.drop (k + 1)).flatten, ?_, ?_⟩
  · calc data = (pieces.take k ++ pieces[k] :: pieces.drop (k + 1)).flatten := by
          rw [← List.drop_eq_getElem_cons hk, List.take_append_drop, hdata]
      _ = (pieces.take k).flatten ++ pieces[k] ++ (pieces.drop (k + 1)).flatten := by
          rw [List.flatten_append, List.flatten_cons, List.append_assoc]
  · rw [List.length_flatten, ho]

variable {data : Bytes} {o n : Nat}

theorem u16le_holds (h : Holds data o (le 2 n)) : u16le data o = pure (n % 0x10000) := by
  unfold u16le
  rw [h.getRange (show o + 2 = o + (le 2 n).length by simp)]
  exact congrArg (pure : Nat → Parse Nat) (fromLe_le 2 n)

theorem u32le_holds (h : Holds data o (le 4 n)) : u32le data o = pure (n % 0x100000000) := by
  unfold u32le
  rw [h.getRange (show o + 4 = o + (le 4 n).length by simp)]
  exact congrArg (pure : Nat → Parse Nat) (fromLe_le 4 n)

/-- A text without a zero, as its units. -/
structure Plain (text : Text) : Prop where
  ascii : IsAscii text
  noNul : nul ∉ text

theorem wide_ascii {text : Text} (h : IsAscii text) :
    wide text = (text.map Char.toNat).flatMap (le 2) := by
  rw [wide, encodeUtf16_ascii h]

theorem length_units (units : List Nat) : (units.flatMap (le 2)).length = units.length * 2 := by
  induction units with
  | nil => rfl
  | cons unit units ih =>
    rw [List.flatMap_cons, List.length_append, ih, length_le, List.length_cons]
    omega

theorem length_wide {text : Text} (h : IsAscii text) : (wide text).length = text.length * 2 := by
  rw [wide_ascii h, length_units, List.length_map]

theorem ascii_nul {text : Text} (h : IsAscii text) : IsAscii (text ++ [nul]) := by
  intro c hc
  rcases List.mem_append.mp hc with hc | hc
  · exact h c hc
  · rw [List.mem_singleton.mp hc]
    decide

/-- The units before a zero are read. -/
theorem readWideLoop_holds : ∀ (units before : List Nat) (o : Nat),
    (∀ unit ∈ units, unit ≠ 0 ∧ unit < 0x10000) → before.length + units.length ≤ 2048 →
    Holds data o ((units ++ [0]).flatMap (le 2)) →
    readWideLoop data before o = pure (fromUtf16Lossy (before ++ units))
  | [], before, o, _, hlen, h => by
    have hread : u16le data o = pure 0 := u16le_holds (n := 0) (by simpa using h)
    have hend := h.length
    rw [length_units] at hend
    simp only [List.nil_append, List.length_cons, List.length_nil] at hend hlen
    unfold readWideLoop
    rw [dif_neg (by omega), hread, pure_bind, if_pos rfl, List.append_nil]
  | unit :: units, before, o, hunits, hlen, h => by
    obtain ⟨⟨hne, hsmall⟩, hrest⟩ := List.forall_mem_cons.mp hunits
    rw [List.cons_append, List.flatMap_cons] at h
    obtain ⟨hunit, hbehind⟩ := h.append
    rw [length_le] at hbehind
    have hread := u16le_holds hunit
    rw [Nat.mod_eq_of_lt hsmall] at hread
    have hend := hunit.length
    rw [length_le] at hend
    rw [List.length_cons] at hlen
    unfold readWideLoop
    rw [dif_neg (by omega), hread, pure_bind, if_neg hne,
      readWideLoop_holds units (before ++ [unit]) (o + 2) hrest (by simp; omega) hbehind,
      List.append_assoc]
    rfl

theorem readWideStr_holds {text : Text} (h : Plain text) (hlen : text.length ≤ 2048)
    (hholds : Holds data o (wide (text ++ [nul]))) : readWideStr data o = pure text := by
  rw [wide_ascii (ascii_nul h.ascii), List.map_append] at hholds
  have hunits : ∀ unit ∈ text.map Char.toNat, unit ≠ 0 ∧ unit < 0x10000 := by
    intro unit hunit
    obtain ⟨c, hc, rfl⟩ := List.mem_map.mp hunit
    have hsmall := h.ascii c hc
    refine ⟨fun hzero => h.noNul ?_, by omega⟩
    have hnul : c = nul := Char.toNat_inj.mp hzero
    exact hnul ▸ hc
  unfold readWideStr
  rw [readWideLoop_holds _ [] o hunits (by simpa using hlen) hholds, List.nil_append,
    fromUtf16Lossy_ascii h.ascii]

theorem readUnits_holds : ∀ (units : List Nat) (o : Nat), (∀ unit ∈ units, unit < 0x10000) →
    Holds data o (units.flatMap (le 2)) → readUnits data o units.length = pure units
  | [], _, _, _ => rfl
  | unit :: units, o, hunits, h => by
    obtain ⟨hsmall, hrest⟩ := List.forall_mem_cons.mp hunits
    rw [List.flatMap_cons] at h
    obtain ⟨hunit, hbehind⟩ := h.append
    rw [length_le] at hbehind
    rw [List.length_cons, readUnits, u16le_holds hunit, Nat.mod_eq_of_lt hsmall, pure_bind,
      readUnits_holds units (o + 2) hrest hbehind, pure_bind]

theorem readWideN_holds {text : Text} (h : IsAscii text) (hholds : Holds data o (wide text)) :
    readWideN data o text.length = pure text := by
  rw [wide_ascii h] at hholds
  have hunits : ∀ unit ∈ text.map Char.toNat, unit < 0x10000 := by
    intro unit hunit
    obtain ⟨c, hc, rfl⟩ := List.mem_map.mp hunit
    have hsmall := h c hc
    omega
  have hread := readUnits_holds _ o hunits hholds
  rw [List.length_map] at hread
  rw [readWideN, hread, pure_bind, fromUtf16Lossy_ascii h]

/-! ## The blocks of texts -/

theorem align4_le (off : Nat) : off ≤ align4 off := by
  unfold align4
  omega

/-- Where a block is aligned, so is what it holds. -/
theorem align4_add {o : Nat} (ho : o % 4 = 0) (n : Nat) : align4 (o + n) = o + align4 n := by
  unfold align4
  omega

theorem putLength_append (n : Nat) (rest : Bytes) :
    putLength (le 2 n ++ rest) = le 2 (rest.length + 2) ++ rest := by
  have hdrop : (le 2 n ++ rest).drop 2 = rest := List.drop_left' (length_le 2 n)
  have hlen : (le 2 n ++ rest).length = rest.length + 2 := by
    rw [List.length_append, length_le, Nat.add_comm]
  unfold putLength
  rw [hdrop, hlen]

/-- The length of a block's head, its key included. -/
def headLength (key : String) : Nat := 6 + (key.toList.length + 1) * 2

theorem textBlock_eq (valueLength : Nat) {key : String} (hkey : IsAscii key.toList)
    (content : Bytes) :
    textBlock valueLength key content =
      [le 2 (align4 (headLength key) + content.length), le 2 valueLength, le 2 1,
        wide (key.toList ++ [nul]),
        List.replicate (align4 (headLength key) - headLength key) 0, content].flatten := by
  have hwide := length_wide (ascii_nul hkey)
  have hhead : (le 2 0 ++ le 2 valueLength ++ le 2 1 ++ wide (key.toList ++ [nul])).length =
      headLength key := by
    rw [List.length_append, hwide]
    simp [headLength]
  unfold textBlock
  dsimp only
  rw [hhead, resize_of_le (hhead ▸ align4_le _), hhead]
  simp only [List.append_assoc]
  rw [putLength_append]
  have hpad := align4_le (headLength key)
  have hlen : (le 2 valueLength ++ (le 2 1 ++ (wide (key.toList ++ [nul]) ++
      (List.replicate (align4 (headLength key) - headLength key) 0 ++ content)))).length + 2 =
      align4 (headLength key) + content.length := by
    simp only [List.length_append, length_le, hwide, List.length_replicate]
    simp only [headLength, List.length_cons, List.length_nil] at hpad ⊢
    omega
  rw [hlen]
  simp

theorem length_textBlock (valueLength : Nat) {key : String} (hkey : IsAscii key.toList)
    (content : Bytes) :
    (textBlock valueLength key content).length = align4 (headLength key) + content.length := by
  have hpad := align4_le (headLength key)
  have hwide := length_wide (ascii_nul hkey)
  rw [textBlock_eq valueLength hkey]
  simp only [List.length_flatten, List.map_cons, List.map_nil, List.sum_cons, List.sum_nil, length_le,
    hwide, List.length_replicate]
  simp only [headLength, List.length_append, List.length_cons, List.length_nil] at hpad ⊢
  omega

/-- A block where it stands. -/
structure ReadsBlock (data : Bytes) (o valueLength : Nat) (key : String) (content : Bytes) : Prop where
  length : u16le data o = pure (align4 (headLength key) + content.length)
  value : u16le data (o + 2) = pure valueLength
  type : u16le data (o + 4) = pure 1
  name : readWideStr data (o + 6) = pure key.toList
  content : Holds data (align4 (o + 6 + (key.toList.length + 1) * 2)) content

theorem readsBlock_holds {valueLength : Nat} {key : String} {content : Bytes} (ho : o % 4 = 0)
    (hvalue : valueLength < 0x10000) (hkey : Plain key.toList) (hkeyLen : key.toList.length ≤ 2048)
    (hsmall : align4 (headLength key) + content.length < 0x10000)
    (h : Holds data o (textBlock valueLength key content)) :
    ReadsBlock data o valueLength key content := by
  have hwide := length_wide (ascii_nul hkey.ascii)
  have hplace : align4 (o + 6 + (key.toList.length + 1) * 2) = o + align4 (headLength key) := by
    rw [← align4_add ho, headLength]
    congr 1
    omega
  have hpad := align4_le (headLength key)
  rw [textBlock_eq valueLength hkey.ascii] at h
  simp only [List.flatten_cons, List.flatten_nil, List.append_nil] at h
  obtain ⟨hlength, h⟩ := h.append
  rw [length_le] at h
  obtain ⟨hval, h⟩ := h.append
  rw [length_le] at h
  obtain ⟨htype, h⟩ := h.append
  rw [length_le] at h
  obtain ⟨hname, h⟩ := h.append
  rw [hwide] at h
  obtain ⟨_, hcontent⟩ := h.append
  refine ⟨?_, ?_, ?_, readWideStr_holds hkey hkeyLen hname, ?_⟩
  · rw [u16le_holds hlength, Nat.mod_eq_of_lt hsmall]
  · rw [u16le_holds hval, Nat.mod_eq_of_lt hvalue]
  · exact u16le_holds htype
  · rw [hplace]
    have hsum : o + 2 + 2 + 2 + (key.toList ++ [nul]).length * 2 +
        (List.replicate (align4 (headLength key) - headLength key) (0 : UInt8)).length =
        o + align4 (headLength key) := by
      rw [List.length_replicate, List.length_append, List.length_singleton]
      unfold headLength at hpad ⊢
      omega
    rw [← hsum]
    exact hcontent

/-! ## The block with the version -/

/-- The lengths of the blocks that a version is built into. -/
def blockLengths (version : Text) : List Nat :=
  [(stringBlock version).length, (stringTable version).length, (stringFileInfo version).length,
    (buildVersionInfoBlob version true).length]

theorem plain_productVersion : Plain "ProductVersion".toList := ⟨by decide, by decide⟩

theorem plain_table : Plain "040904b0".toList := ⟨by decide, by decide⟩

theorem plain_stringFileInfo : Plain "StringFileInfo".toList := ⟨by decide, by decide⟩

theorem plain_versionInfo : Plain "VS_VERSION_INFO".toList := ⟨by decide, by decide⟩

theorem length_stringBlock {version : Text} (h : IsAscii version) :
    (stringBlock version).length = 38 + version.length * 2 := by
  unfold stringBlock
  rw [length_textBlock _ plain_productVersion.ascii, length_wide (ascii_nul h), List.length_append,
    List.length_singleton]
  have hhead : align4 (headLength "ProductVersion") = 36 := by decide
  omega

theorem length_stringTable {version : Text} (h : IsAscii version) :
    (stringTable version).length = 62 + version.length * 2 := by
  unfold stringTable
  rw [length_textBlock _ plain_table.ascii, length_stringBlock h]
  have hhead : align4 (headLength "040904b0") = 24 := by decide
  omega

theorem length_stringFileInfo {version : Text} (h : IsAscii version) :
    (stringFileInfo version).length = 98 + version.length * 2 := by
  unfold stringFileInfo
  rw [length_textBlock _ plain_stringFileInfo.ascii, length_stringTable h]
  have hhead : align4 (headLength "StringFileInfo") = 36 := by decide
  omega

theorem length_fixedInfo (version : Text) : (fixedInfo version).length = 24 := by
  simp [fixedInfo]

/-- The blocks of texts, when they are asked for. -/
def textBlocks (version : Text) (includeStringTable : Bool) : Bytes :=
  if includeStringTable then stringFileInfo version else []

/-- What is built by its pieces. -/
theorem blob_eq (version : Text) (includeStringTable : Bool) :
    buildVersionInfoBlob version includeStringTable =
      [le 2 (92 + (textBlocks version includeStringTable).length), le 2 52, le 2 0,
        wide ("VS_VERSION_INFO".toList ++ [nul]), List.replicate 2 0, fixedInfo version,
        List.replicate 28 0, textBlocks version includeStringTable].flatten := by
  have hwide : (wide ("VS_VERSION_INFO".toList ++ [nul])).length = 32 :=
    length_wide (ascii_nul plain_versionInfo.ascii)
  have hhead : (le 2 0 ++ le 2 52 ++ le 2 0 ++ wide ("VS_VERSION_INFO".toList ++ [nul])).length =
      38 := by
    rw [List.length_append, hwide]
    simp
  have hinfo : (le 2 0 ++ le 2 52 ++ le 2 0 ++ wide ("VS_VERSION_INFO".toList ++ [nul]) ++
      List.replicate 2 0 ++ fixedInfo version).length = 64 := by
    rw [List.length_append, List.length_append, hhead, length_fixedInfo, List.length_replicate]
  have hblocks : ∀ vs : Bytes,
      (if includeStringTable then vs ++ stringFileInfo version else vs) =
        vs ++ textBlocks version includeStringTable := by
    intro vs
    cases includeStringTable <;> simp [textBlocks]
  unfold buildVersionInfoBlob
  dsimp only
  rw [hblocks, resize_to 2 hhead rfl, resize_to 28 hinfo rfl]
  simp only [List.append_assoc]
  rw [putLength_append]
  have hlen : (le 2 52 ++ (le 2 0 ++ (wide ("VS_VERSION_INFO".toList ++ [nul]) ++
      (List.replicate 2 0 ++ (fixedInfo version ++ (List.replicate 28 0 ++
        textBlocks version includeStringTable)))))).length + 2 =
      92 + (textBlocks version includeStringTable).length := by
    simp only [List.length_append, length_le, hwide, length_fixedInfo, List.length_replicate]
    omega
  rw [hlen]
  simp

def blobLengths (n : Nat) : List Nat := [2, 2, 2, 32, 2, 24, 28, n]

/-- The `k`th piece in its place. -/
theorem blob_holds {version : Text} {includeStringTable : Bool} (k : Nat) {o : Nat} {piece : Bytes}
    (hpiece : [le 2 (92 + (textBlocks version includeStringTable).length), le 2 52, le 2 0,
      wide ("VS_VERSION_INFO".toList ++ [nul]), List.replicate 2 0, fixedInfo version,
      List.replicate 28 0, textBlocks version includeStringTable][k]? = some piece)
    (ho : ((blobLengths (textBlocks version includeStringTable).length).take k).sum = o) :
    Holds (buildVersionInfoBlob version includeStringTable) o piece := by
  have hwide : (wide ("VS_VERSION_INFO".toList ++ [nul])).length = 32 :=
    length_wide (ascii_nul plain_versionInfo.ascii)
  refine holds_flatten (blob_eq version includeStringTable) hpiece ?_
  rw [List.map_take, ← ho]
  simp only [List.map_cons, List.map_nil, length_le, hwide, length_fixedInfo, List.length_replicate,
    blobLengths]

theorem length_blob (version : Text) (includeStringTable : Bool) :
    (buildVersionInfoBlob version includeStringTable).length =
      92 + (textBlocks version includeStringTable).length := by
  have hwide : (wide ("VS_VERSION_INFO".toList ++ [nul])).length = 32 :=
    length_wide (ascii_nul plain_versionInfo.ascii)
  rw [blob_eq]
  simp only [List.length_flatten, List.map_cons, List.map_nil, List.sum_cons, List.sum_nil, length_le,
    hwide, length_fixedInfo, List.length_replicate]
  omega

/-- The String block of a version is read as its product version. -/
theorem scanStrings_built {vs : Bytes} {version : Text} {o : Nat} (ho : o % 4 = 0)
    (h : IsAscii version) (hsmall : (stringBlock version).length < 0x10000)
    (hholds : Holds vs o (stringBlock version)) :
    scanStrings vs (o + (stringBlock version).length) o none none = pure (some version, none) := by
  have hlen := length_stringBlock h
  have hend := hholds.length
  have hcontent : align4 (headLength "ProductVersion") + (wide (version ++ [nul])).length =
      (stringBlock version).length := (length_textBlock _ plain_productVersion.ascii _).symm
  have hread := readsBlock_holds ho (by omega) plain_productVersion (by decide)
    (by rw [hcontent]; exact hsmall) hholds
  have hplace : align4 (o + 6 + ("ProductVersion".toList.length + 1) * 2) = o + 36 := by
    rw [show o + 6 + ("ProductVersion".toList.length + 1) * 2 = o + 36 from rfl, align4_add ho]
    rfl
  have hvalue := hread.content
  rw [hplace] at hvalue
  have htext : Holds vs (o + 36) (wide version) := by
    rw [wide, encodeUtf16, List.flatMap_append, List.flatMap_append] at hvalue
    exact hvalue.append.1
  have hreadValue : readValue vs 1 "ProductVersion".toList (o + 36) (version.length + 1) =
      pure (some version) := by
    unfold readValue
    rw [if_pos ⟨rfl, by decide, by omega, by omega⟩, Nat.add_sub_cancel, readWideN_holds h htext]
    rfl
  unfold scanStrings
  rw [dif_pos (by omega), hread.length, hcontent, getD_pure, pure_bind, dif_neg (by omega), hread.type,
    getD_pure, pure_bind, hread.name, getD_pure, pure_bind, hread.value, getD_pure, pure_bind, hplace,
    hreadValue, pure_bind, if_pos rfl, if_neg (by decide)]
  -- The next block would stand behind the end.
  have hnext := align4_le (o + (stringBlock version).length)
  unfold scanStrings
  rw [dif_neg (by omega)]
  rfl

/-- The blocks of texts where they stand in what is built. -/
theorem scanStringFileInfo_built {version : Text} (h : IsAscii version)
    (hsmall : ∀ n ∈ blockLengths version, n < 0x10000) :
    scanStringFileInfo (buildVersionInfoBlob version true) 92 none = pure version := by
  simp only [blockLengths, List.forall_mem_cons] at hsmall
  obtain ⟨hstring, htable, hinfo, _⟩ := hsmall
  have hstringLen := length_stringBlock h
  have htableLen := length_stringTable h
  have hinfoLen := length_stringFileInfo h
  have hholds : Holds (buildVersionInfoBlob version true) 92 (stringFileInfo version) :=
    blob_holds 7 rfl (by simp [blobLengths])
  have hend := hholds.length
  have hinfoSum : align4 (headLength "StringFileInfo") + (stringTable version).length =
      (stringFileInfo version).length := (length_textBlock _ plain_stringFileInfo.ascii _).symm
  have hreadInfo := readsBlock_holds rfl (by decide) plain_stringFileInfo (by decide)
    (by rw [hinfoSum]; exact hinfo) hholds
  have htableSum : align4 (headLength "040904b0") + (stringBlock version).length =
      (stringTable version).length := (length_textBlock _ plain_table.ascii _).symm
  have hreadTable := readsBlock_holds rfl (by decide) plain_table (by decide)
    (by rw [htableSum]; exact htable) hreadInfo.content
  have hscan := scanStrings_built rfl h hstring hreadTable.content
  unfold scanStringFileInfo
  rw [dif_pos (by omega), hreadInfo.length, hinfoSum, pure_bind, dif_neg (by omega), hreadInfo.name,
    pure_bind, if_pos rfl]
  unfold scanStringTable
  rw [hreadTable.name, getD_pure, pure_bind]
  have hstop : 92 + (stringFileInfo version).length =
      align4 (align4 (92 + 6 + ("StringFileInfo".toList.length + 1) * 2) + 6 +
        ("040904b0".toList.length + 1) * 2) + (stringBlock version).length := by
    rw [show align4 (align4 (92 + 6 + ("StringFileInfo".toList.length + 1) * 2) + 6 +
      ("040904b0".toList.length + 1) * 2) = 152 from by decide]
    omega
  rw [hstop, hscan]
  rfl

/-- The three numbers of a version. -/
def numericText (version : Text) : Text :=
  (toString (versionNumber version 0) ++ "." ++ toString (versionNumber version 1) ++ "." ++
    toString (versionNumber version 2)).toList

theorem numericVersion_built (version : Text) (includeStringTable : Bool) :
    numericVersion (buildVersionInfoBlob version includeStringTable) 52 =
      pure (some (numericText version)) := by
  have hlen := length_blob version includeStringTable
  have hmajor : versionNumber version 0 < 0x10000 := Nat.mod_lt _ (by decide)
  have hminor : versionNumber version 1 < 0x10000 := Nat.mod_lt _ (by decide)
  have hpatch : versionNumber version 2 < 0x10000 := Nat.mod_lt _ (by decide)
  have hholds : Holds (buildVersionInfoBlob version includeStringTable) 40 (fixedInfo version) :=
    blob_holds 5 rfl (by simp [blobLengths])
  unfold fixedInfo at hholds
  simp only [List.append_assoc] at hholds
  obtain ⟨hsignature, hholds⟩ := hholds.append
  obtain ⟨_, hholds⟩ := hholds.append
  obtain ⟨hms, hholds⟩ := hholds.append
  obtain ⟨hls, _⟩ := hholds.append
  simp only [length_le] at hms hls
  have hmsRead := u32le_holds hms
  have hlsRead := u32le_holds hls
  rw [Nat.mod_eq_of_lt (by omega)] at hmsRead hlsRead
  unfold numericVersion
  rw [if_pos ⟨by omega, by omega⟩, u32le_holds hsignature, pure_bind, if_pos (by decide), hmsRead,
    pure_bind, hlsRead, pure_bind]
  have hhigh : (versionNumber version 0 * 0x10000 + versionNumber version 1) / 0x10000 =
      versionNumber version 0 := by omega
  have hlow : (versionNumber version 0 * 0x10000 + versionNumber version 1) % 0x10000 =
      versionNumber version 1 := by omega
  have hthird : versionNumber version 2 * 0x10000 / 0x10000 = versionNumber version 2 :=
    Nat.mul_div_cancel _ (by decide)
  rw [hhigh, hlow, hthird]
  rfl

/-- The head of a block that is built. -/
theorem parse_blob (version : Text) (includeStringTable : Bool) :
    parseProductVersion (buildVersionInfoBlob version includeStringTable) =
      Parse.or (scanStringFileInfo (buildVersionInfoBlob version includeStringTable) 92 none)
        (some (numericText version)) := by
  have hlen := length_blob version includeStringTable
  have hkey : readWideStr (buildVersionInfoBlob version includeStringTable) 6 =
      pure "VS_VERSION_INFO".toList :=
    readWideStr_holds plain_versionInfo (by decide) (blob_holds 3 rfl rfl)
  have hvalueLen : u16le (buildVersionInfoBlob version includeStringTable) 2 = pure 52 :=
    @u16le_holds _ _ 52 (blob_holds 1 rfl rfl)
  unfold parseProductVersion
  rw [if_neg (by omega), hkey, pure_bind, if_neg (by simp), hvalueLen, pure_bind,
    numericVersion_built, pure_bind]
  rfl

/-- Of a block with its texts the version is read. -/
theorem parse_built {version : Text} (h : IsAscii version)
    (hsmall : ∀ n ∈ blockLengths version, n < 0x10000) :
    parseProductVersion (buildVersionInfoBlob version true) = pure version := by
  rw [parse_blob, scanStringFileInfo_built h hsmall, or_pure]

/-- Of a block without them the three numbers are. -/
theorem parse_numbers (version : Text) :
    parseProductVersion (buildVersionInfoBlob version false) = pure (numericText version) := by
  have hlen := length_blob version false
  have hnone : scanStringFileInfo (buildVersionInfoBlob version false) 92 none = failure := by
    have hblocks : (textBlocks version false).length = 0 := rfl
    unfold scanStringFileInfo
    rw [dif_neg (by omega), ofOption_none]
  rw [parse_blob, hnone, or_failure, ofOption_some]

/-! ## The image -/

/-- The pieces of an image with the block `vs`. -/
def imagePieces (resSize : Nat) (vs : Bytes) : List Bytes := [
  [0x4D, 0x5A], List.replicate 58 0, le 4 0x40, [0x50, 0x45, 0, 0],
  le 2 0x8664, le 2 1, le 4 0, le 4 0, le 4 0, le 2 240, le 2 0x22,
  le 2 0x20B, List.replicate 106 0, le 4 16, List.replicate 16 0, le 4 resRva, le 4 resSize,
  List.replicate 104 0,
  [0x2E, 0x72, 0x73, 0x72, 0x63, 0, 0, 0], le 4 resSize, le 4 resRva, le 4 resSize, le 4 secRaw,
  List.replicate 16 0, List.replicate 656 0,
  le 4 0, le 4 0, le 2 0, le 2 0, le 2 0, le 2 1, le 4 16, le 4 (0x80000000 + 0x18),
  le 4 0, le 4 0, le 2 0, le 2 0, le 2 0, le 2 1, le 4 1, le 4 (0x80000000 + 0x30),
  le 4 0, le 4 0, le 2 0, le 2 0, le 2 0, le 2 1, le 4 0x409, le 4 0x48,
  le 4 (resRva + 0x58), le 4 vs.length, le 4 0, le 4 0, vs]

def imageLengths (n : Nat) : List Nat := [
  2, 58, 4, 4,
  2, 2, 4, 4, 4, 2, 2,
  2, 106, 4, 16, 4, 4,
  104,
  8, 4, 4, 4, 4,
  16, 656,
  4, 4, 2, 2, 2, 2, 4, 4,
  4, 4, 2, 2, 2, 2, 4, 4,
  4, 4, 2, 2, 2, 2, 4, 4,
  4, 4, 4, 4, n]

theorem imagePieces_lengths (resSize : Nat) (vs : Bytes) :
    (imagePieces resSize vs).map List.length = imageLengths vs.length := by
  simp only [imagePieces, imageLengths, List.map_cons, List.map_nil, length_le, List.length_replicate,
    List.length_cons, List.length_nil]

theorem image_eq (resSize : Nat) (vs : Bytes) :
    resize (imageHead resSize ++ resSection resSize) secRaw ++ resources vs =
      (imagePieces resSize vs).flatten := by
  have hcoff : ([0x4D, 0x5A] ++ List.replicate 58 0 ++ le 4 0x40 ++ List.replicate 0 0 ++
      [0x50, 0x45, 0, 0] ++ le 2 0x8664 ++ le 2 1 ++ le 4 0 ++ le 4 0 ++ le 4 0 ++ le 2 240 ++
      le 2 0x22).length = 88 := by
    simp only [List.length_append, length_le, List.length_replicate, List.length_cons,
      List.length_nil]
  unfold imageHead resSection
  dsimp only
  rw [@resize_to [0x4D, 0x5A] 2 _ 58 rfl rfl, @resize_to _ _ 0x40 0 (by
    simp only [List.length_append, length_le, List.length_replicate, List.length_cons,
      List.length_nil]) rfl, hcoff]
  rw [@resize_to _ _ (88 + 108) 106 (by
    simp only [List.length_append, length_le, List.length_replicate, List.length_cons,
      List.length_nil]) rfl]
  rw [@resize_to _ _ (88 + 112 + 2 * 8) 16 (by
    simp only [List.length_append, length_le, List.length_replicate, List.length_cons,
      List.length_nil]) rfl]
  rw [@resize_to _ _ (88 + 240) 104 (by
    simp only [List.length_append, length_le, List.length_replicate, List.length_cons,
      List.length_nil]) rfl]
  rw [@resize_to _ _ secRaw 656 (by
    simp only [List.length_append, length_le, List.length_replicate, List.length_cons,
      List.length_nil]) rfl]
  simp only [imagePieces, resources, pushDir, List.flatten_cons, List.flatten_nil, List.append_assoc,
    List.append_nil, List.replicate_zero, List.flatMap_cons, List.flatMap_nil, List.length_cons,
    List.length_nil]

section
variable {resSize : Nat} {vs : Bytes}

/-- The `k`th piece in its place. -/
theorem image_holds (k : Nat) {o : Nat} {piece : Bytes}
    (hpiece : (imagePieces resSize vs)[k]? = some piece)
    (ho : ((imageLengths vs.length).take k).sum = o) :
    Holds (imagePieces resSize vs).flatten o piece := by
  refine holds_flatten rfl hpiece ?_
  rw [List.map_take, imagePieces_lengths, ho]

theorem sliceOf_holds {piece : Bytes} {stop : Nat} (h : Holds data o piece)
    (hstop : stop = o + piece.length) : sliceOf data o stop = pure piece := by
  unfold sliceOf
  rw [h.range hstop]
  rfl

/-- The one section of the image, from its virtual to its raw address. -/
theorem rvaToOffset_image {d : Nat} (hsize : resSize < 0x100000000) (hd : d < resSize)
    (hlen : secRaw + d < (imagePieces resSize vs).flatten.length) :
    rvaToOffset (imagePieces resSize vs).flatten 0x148 1 (resRva + d) = pure (secRaw + d) := by
  have hvsize := u32le_holds (@image_holds resSize vs 19 (0x148 + 0 * 40 + 8) _ rfl (by simp [imageLengths]))
  have hva := u32le_holds (@image_holds resSize vs 20 (0x148 + 0 * 40 + 12) _ rfl (by simp [imageLengths]))
  have hrsize := u32le_holds (@image_holds resSize vs 21 (0x148 + 0 * 40 + 16) _ rfl (by simp [imageLengths]))
  have hraw := u32le_holds (@image_holds resSize vs 22 (0x148 + 0 * 40 + 20) _ rfl (by simp [imageLengths]))
  rw [Nat.mod_eq_of_lt hsize] at hvsize hrsize
  rw [show resRva % 0x100000000 = resRva by decide] at hva
  rw [show secRaw % 0x100000000 = secRaw by decide] at hraw
  unfold rvaToOffset rvaLoop
  dsimp only
  rw [hvsize, pure_bind, hva, pure_bind, hrsize, pure_bind, hraw, pure_bind,
    if_neg (show ¬resRva = 0 by decide), max_self, if_pos ⟨by omega, by omega⟩,
    Nat.add_sub_cancel_left, if_pos hlen]

/-- A directory with one numbered entry. -/
structure HoldsDir (data : Bytes) (dirOff id off : Nat) : Prop where
  named : Holds data (dirOff + 12) (le 2 0)
  ids : Holds data (dirOff + 14) (le 2 1)
  id : Holds data (dirOff + 16) (le 4 id)
  off : Holds data (dirOff + 20) (le 4 off)

theorem firstResourceEntry_holds {dirOff id off : Nat} (h : HoldsDir data dirOff id off)
    (hoff : off < 0x100000000) :
    firstResourceEntry data dirOff = pure (decide (0x80000000 ≤ off), off % 0x80000000) := by
  have hread := u32le_holds h.off
  rw [Nat.mod_eq_of_lt hoff] at hread
  unfold firstResourceEntry
  rw [u16le_holds h.named, pure_bind, u16le_holds h.ids, pure_bind, if_neg (by decide)]
  rw [show dirOff + 16 + 0 % 0x10000 * 8 + 4 = dirOff + 20 from rfl, hread, pure_bind]

theorem findResourceEntryById_holds {dirOff id off : Nat} (h : HoldsDir data dirOff id off)
    (hid : id < 0x10000) (hoff : off < 0x100000000) :
    findResourceEntryById data dirOff id = pure (off % 0x80000000) := by
  have hread := u32le_holds h.off
  rw [Nat.mod_eq_of_lt hoff] at hread
  have hname := u32le_holds h.id
  rw [Nat.mod_eq_of_lt (show id < 0x100000000 by omega)] at hname
  unfold findResourceEntryById
  rw [u16le_holds h.named, pure_bind, u16le_holds h.ids, pure_bind]
  rw [show 0 % 0x10000 + 1 % 0x10000 = 0 + 1 from rfl]
  unfold findEntryLoop
  dsimp only
  rw [show dirOff + 16 + 0 * 8 = dirOff + 16 from rfl, hname, pure_bind,
    if_pos ⟨by omega, Nat.mod_eq_of_lt hid⟩, show dirOff + 16 + 4 = dirOff + 20 from rfl, hread,
    pure_bind]

/-- The directories and the data entry lead to the block. -/
theorem readResource_image (hsize : resSize = 0x80 + vs.length) (hvs : 0 < vs.length)
    (hsmall : vs.length < 0x10000) :
    readResource (imagePieces resSize vs).flatten 0x148 1 resRva = pure vs := by
  have hblock := @image_holds resSize vs 53 0x458 _ rfl (by simp [imageLengths])
  have hlen := hblock.length
  have hsec : secRaw = 0x400 := rfl
  have hroot : rvaToOffset (imagePieces resSize vs).flatten 0x148 1 resRva = pure 0x400 :=
    @rvaToOffset_image resSize vs 0 (by omega) (by omega) (by omega)
  have hdata : rvaToOffset (imagePieces resSize vs).flatten 0x148 1 (resRva + 0x58) = pure 0x458 :=
    @rvaToOffset_image resSize vs 0x58 (by omega) (by omega) (by omega)
  have hfirst : HoldsDir (imagePieces resSize vs).flatten 0x400 16 (0x80000000 + 0x18) :=
    ⟨image_holds 29 rfl (by simp [imageLengths]), image_holds 30 rfl (by simp [imageLengths]),
      image_holds 31 rfl (by simp [imageLengths]), image_holds 32 rfl (by simp [imageLengths])⟩
  have hsecond : HoldsDir (imagePieces resSize vs).flatten 0x418 1 (0x80000000 + 0x30) :=
    ⟨image_holds 37 rfl (by simp [imageLengths]), image_holds 38 rfl (by simp [imageLengths]),
      image_holds 39 rfl (by simp [imageLengths]), image_holds 40 rfl (by simp [imageLengths])⟩
  have hthird : HoldsDir (imagePieces resSize vs).flatten 0x430 0x409 0x48 :=
    ⟨image_holds 45 rfl (by simp [imageLengths]), image_holds 46 rfl (by simp [imageLengths]),
      image_holds 47 rfl (by simp [imageLengths]), image_holds 48 rfl (by simp [imageLengths])⟩
  have hrva := u32le_holds (@image_holds resSize vs 49 0x448 _ rfl (by simp [imageLengths]))
  have hcount := u32le_holds (@image_holds resSize vs 50 0x44C _ rfl (by simp [imageLengths]))
  rw [Nat.mod_eq_of_lt (show vs.length < 0x100000000 by omega)] at hcount
  rw [show (resRva + 0x58) % 0x100000000 = resRva + 0x58 by decide] at hrva
  unfold readResource
  rw [hroot, pure_bind, findResourceEntryById_holds hfirst (by decide) (by decide), pure_bind]
  rw [show 0x400 + (0x80000000 + 0x18) % 0x80000000 = 0x418 by decide,
    firstResourceEntry_holds hsecond (by decide), pure_bind]
  dsimp only
  rw [if_neg (by decide), show 0x400 + (0x80000000 + 0x30) % 0x80000000 = 0x430 by decide,
    firstResourceEntry_holds hthird (by decide), pure_bind]
  dsimp only
  rw [if_neg (by decide), show 0x400 + 0x48 % 0x80000000 = 0x448 by decide, hrva, pure_bind, hcount,
    pure_bind, hdata, pure_bind, hblock.getRange rfl, ofOption_some]

/-- Of an image that is built the block is found. -/
theorem find_built (hvs : 0 < vs.length) (hsmall : vs.length < 0x10000) :
    findVersionResource (imagePieces (0x80 + vs.length) vs).flatten = pure vs := by
  have hlen := (@image_holds (0x80 + vs.length) vs 53 0x458 _ rfl (by simp [imageLengths])).length
  have hmagic := sliceOf_holds (@image_holds (0x80 + vs.length) vs 0 0 _ rfl (by simp [imageLengths]))
    (show 2 = 0 + 2 from rfl)
  have hpe := u32le_holds (@image_holds (0x80 + vs.length) vs 2 0x3C _ rfl (by simp [imageLengths]))
  have hsignature := sliceOf_holds
    (@image_holds (0x80 + vs.length) vs 3 0x40 _ rfl (by simp [imageLengths]))
    (show 0x44 = 0x40 + 4 from rfl)
  have hsections := u16le_holds
    (@image_holds (0x80 + vs.length) vs 5 0x46 _ rfl (by simp [imageLengths]))
  have hopt := u16le_holds (@image_holds (0x80 + vs.length) vs 9 0x54 _ rfl (by simp [imageLengths]))
  have hoptMagic := u16le_holds
    (@image_holds (0x80 + vs.length) vs 11 0x58 _ rfl (by simp [imageLengths]))
  have hdirs := u32le_holds
    (@image_holds (0x80 + vs.length) vs 13 0xC4 _ rfl (by simp [imageLengths]))
  have hres := u32le_holds
    (@image_holds (0x80 + vs.length) vs 15 0xD8 _ rfl (by simp [imageLengths]))
  unfold findVersionResource
  rw [if_neg (by omega), hmagic, pure_bind, if_neg (by simp), hpe, pure_bind]
  rw [show 0x40 % 0x100000000 = 0x40 from rfl]
  rw [if_neg (by omega), show 0x40 + 4 = 0x44 from rfl, hsignature, pure_bind, if_neg (by simp)]
  dsimp only
  rw [show 0x44 + 2 = 0x46 from rfl, hsections, pure_bind, show 0x44 + 16 = 0x54 from rfl, hopt,
    pure_bind, show 0x44 + 20 = 0x58 from rfl, hoptMagic, pure_bind]
  rw [show dataDirectories 0x58 (0x20B % 0x10000) = some (0xC4, 0xC8) from rfl, ofOption_some,
    pure_bind]
  dsimp only
  rw [hdirs, pure_bind, if_neg (by decide), show 0xC8 + 2 * 8 = 0xD8 from rfl, hres, pure_bind,
    if_neg (by decide), show resRva % 0x100000000 = resRva by decide]
  exact readResource_image rfl hvs hsmall

end

/-- The readers end for every input without an access out of range; of an image that is built with
    a version of ASCII whose blocks have lengths of 16 bits, the version is read, and of one
    without the blocks of texts its numbers are. -/
theorem extract_built (data : Bytes) (version : Text) (h : IsAscii version)
    (hsmall : ∀ n ∈ blockLengths version, n < 0x10000) :
    InBounds (findVersionResource data) ∧ InBounds (parseProductVersion data) ∧
      InBounds (extractExeVersion data) ∧
      extractExeVersion (buildMinimalPeWithVersion version true) = pure version ∧
      extractExeVersion (buildMinimalPeWithVersion version false) = pure (numericText version) := by
  refine ⟨findVersionResource_inBounds data, parseProductVersion_inBounds data, extractExeVersion_inBounds data,
    ?_, ?_⟩
  · have hblob := length_blob version true
    have hlen : (buildVersionInfoBlob version true).length < 0x10000 :=
      hsmall _ (by simp [blockLengths])
    unfold extractExeVersion buildMinimalPeWithVersion
    dsimp only
    rw [image_eq, find_built (by omega) hlen, pure_bind, parse_built h hsmall]
  · have hblob := length_blob version false
    have hblocks : (textBlocks version false).length = 0 := rfl
    unfold extractExeVersion buildMinimalPeWithVersion
    dsimp only
    rw [image_eq, find_built (by omega) (by omega), pure_bind, parse_numbers]

theorem extract_built_beta :
    IsAscii "8.8.8-beta.1".toList ∧ (∀ n ∈ blockLengths "8.8.8-beta.1".toList, n < 0x10000) ∧
      InBounds (findVersionResource []) ∧
      extractExeVersion (buildMinimalPeWithVersion "8.8.8-beta.1".toList true) =
        pure "8.8.8-beta.1".toList := by
  have hascii : IsAscii "8.8.8-beta.1".toList := by decide
  have hsmall : ∀ n ∈ blockLengths "8.8.8-beta.1".toList, n < 0x10000 := by
    simp only [blockLengths, List.forall_mem_cons]
    rw [length_blob, length_stringBlock hascii, length_stringTable hascii, textBlocks, if_pos rfl,
      length_stringFileInfo hascii]
    decide
  have hread := extract_built [] "8.8.8-beta.1".toList hascii hsmall
  exact ⟨hascii, hsmall, hread.1, hread.2.2.2.1⟩

end CampusAuth.Update
