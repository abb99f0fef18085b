import Mathlib.Data.List.Infix
import CampusAuth.Update.Extraction

/- What an extraction leaves behind. Every file and every directory it creates lies below the
   destination, and every file comes from an entry that is a file and passed the filter: links
   are refused before anything is created for them. This holds of every archive. The bounds on
   sizes hold as long as contents keep to what the checks of the declared sizes promise
   (`Archive.Fits`), and no longer: the bytes of a zip archive are counted when they have been
   written, and those of a tar archive are not counted at all. -/
namespace CampusAuth.Update
open Lib Extraction

variable {accept : Accept} {dest : Path} {s t : Extraction}

/-! ## What a turn does -/

/-- Nothing is written; a directory below the destination may be new. -/
structure Keeps (dest : Path) (s t : Extraction) : Prop where
  files : t.files = s.files
  written : t.written = s.written
  dirs : t.dirs = s.dirs ∨ ∃ q rel, staysInside 0 rel = true ∧ q <+: dest ++ rel ∧
    t.dirs = q.inits.map place ++ s.dirs

/-- Bytes are written to a file below the destination, which is kept or removed. -/
structure Writes (dest rel : Path) (bytes : Nat) (kept : Bool) (s t : Extraction) : Prop where
  inside : staysInside 0 rel = true
  written : t.written = s.written + bytes
  files : t.files = if kept then (place (dest ++ rel), bytes) :: s.without (dest ++ rel)
    else s.without (dest ++ rel)
  dirs : t.dirs = (dest ++ rel).dropLast.inits.map place ++ s.dirs
  fresh : place (dest ++ rel) ∉ t.dirs

theorem Keeps.of_eq (hfiles : t.files = s.files) (hwritten : t.written = s.written)
    (hdirs : t.dirs = s.dirs) : Keeps dest s t := ⟨hfiles, hwritten, .inl hdirs⟩

theorem Keeps.fail (h : Keeps dest s t) (e : Text) : Keeps dest s (t.fail e) :=
  ⟨h.files, h.written, h.dirs⟩

theorem createDirAll_keeps {rel q : Path} (hinside : staysInside 0 rel = true)
    (hq : q <+: dest ++ rel) (luck : Option Text) : Keeps dest s (s.createDirAll q luck) := by
  unfold createDirAll
  split
  · exact .of_eq rfl rfl rfl
  · dsimp only
    split
    · exact .of_eq rfl rfl rfl
    · exact ⟨rfl, rfl, .inr ⟨q, rel, hinside, hq, rfl⟩⟩

/-- Either a file is not opened and nothing is written, or it is there and empty. -/
theorem openFile_cases (dest : Path) (hs : s.error = none) {rel : Path}
    (hinside : staysInside 0 rel = true)
    (luck : Luck) :
    ((s.openFile (dest ++ rel) luck).error.isSome = true ∧
      Keeps dest s (s.openFile (dest ++ rel) luck)) ∨
    ((s.openFile (dest ++ rel) luck).error = none ∧
      Writes dest rel 0 true s (s.openFile (dest ++ rel) luck)) := by
  have hkeeps := createDirAll_keeps (s := s) hinside (List.dropLast_prefix (dest ++ rel))
    luck.createDirAll
  unfold openFile andThen
  cases hdir : (s.createDirAll (dest ++ rel).dropLast luck.createDirAll).error with
  | some e => exact .inl ⟨by simp [hdir], by simpa using hkeeps⟩
  | none =>
    have hnew : (s.createDirAll (dest ++ rel).dropLast luck.createDirAll).dirs =
        (dest ++ rel).dropLast.inits.map place ++ s.dirs := by
      unfold createDirAll at hdir ⊢
      split at hdir
      · cases hdir
      · dsimp only at hdir ⊢
        split at hdir
        · cases hdir
        next hfree => rw [if_neg hfree]
    rw [if_neg (by simp)]
    generalize s.createDirAll (dest ++ rel).dropLast luck.createDirAll = u at *
    unfold create
    split
    · exact .inl ⟨rfl, hkeeps.fail _⟩
    · dsimp only
      split
      · exact .inl ⟨rfl, hkeeps.fail _⟩
      next hfresh =>
        refine .inr ⟨hdir, hinside, hkeeps.written, ?_, hnew, by simpa using hfresh⟩
        rw [if_pos rfl, without, hkeeps.files]
        rfl

/-- What was an empty file gets its content. -/
theorem Writes.write {rel : Path} (h : Writes dest rel 0 true s t) (bytes : Nat) :
    Writes dest rel bytes true s (t.write (dest ++ rel) bytes) where
  inside := h.inside
  written := by simp [Extraction.write, h.written]
  files := by
    have hothers : t.without (dest ++ rel) = s.without (dest ++ rel) := by
      unfold without
      rw [h.files, if_pos rfl]
      unfold without
      simp
    rw [if_pos rfl, ← hothers]
    rfl
  dirs := h.dirs
  fresh := h.fresh

theorem Writes.fail {rel : Path} {bytes : Nat} {kept : Bool} (h : Writes dest rel bytes kept s t)
    (e : Text) : Writes dest rel bytes kept s (t.fail e) :=
  ⟨h.inside, h.written, h.files, h.dirs, h.fresh⟩

theorem Writes.count {rel : Path} {bytes : Nat} {kept : Bool} (h : Writes dest rel bytes kept s t)
    (total : Nat) : Writes dest rel bytes kept s { t with totalBytes := total } :=
  ⟨h.inside, h.written, h.files, h.dirs, h.fresh⟩

/-- The file is removed again, unless that fails. -/
theorem Writes.removeFile {rel : Path} {bytes : Nat} (h : Writes dest rel bytes true s t)
    (luck : Option Text) :
    Writes dest rel bytes luck.isSome s (t.removeFile (dest ++ rel) luck) := by
  cases luck with
  | some e => exact h
  | none =>
    refine ⟨h.inside, h.written, ?_, h.dirs, h.fresh⟩
    show t.without (dest ++ rel) = s.without (dest ++ rel)
    unfold without
    rw [h.files, if_pos rfl]
    unfold without
    simp

/-! ### Zip -/

/-- The content of the entry is copied: it passes the filter and the check of its declared
    size, and its file can be created. -/
structure ZipOpens (accept : Accept) (dest : Path) (s : Extraction) (item : ZipItem)
    (entry : ZipEntry) (name : EnclosedPath) : Prop where
  read : item.entry = .ok entry
  named : entry.enclosedName = some name
  accepted : accept s.asked name.path = true
  plain : entry.isSymlink = false ∧ entry.isDir = false
  declared : entry.size ≤ maxEntryBytes ∧ saturatingAdd s.totalBytes entry.size ≤ maxTotalBytes
  created : (openFile { s with asked := name.path :: s.asked } (dest ++ name.path)
    item.luck).error = none

/-- The bytes of an entry that are copied at most. -/
def ZipEntry.copied (entry : ZipEntry) : Nat := min entry.content.bytes (maxEntryBytes + 1)

/-- The file of an entry stays: it is not too large, or cannot be removed. -/
def ZipEntry.stays (entry : ZipEntry) (luck : Luck) : Bool :=
  entry.content.bytes ≤ maxEntryBytes || luck.remove.isSome

theorem zipCopy_writes {rel : Path} {entry : ZipEntry} {luck : Luck}
    (h : Writes dest rel 0 true s t) :
    Writes dest rel entry.copied (entry.stays luck) s (t.zipCopy (dest ++ rel) entry luck) := by
  unfold zipCopy ZipEntry.copied ZipEntry.stays
  by_cases hfits : entry.content.bytes ≤ maxEntryBytes
  · have htake : entry.content.take (maxEntryBytes + 1) = entry.content := by
      rw [Content.take, if_pos (Nat.lt_succ_of_le hfits)]
    have hwrite := h.write entry.content.bytes
    rw [htake, Nat.min_eq_left (by omega), decide_eq_true hfits, Bool.true_or]
    dsimp only
    split
    · exact hwrite.fail _
    · rw [if_neg (by omega)]
      split
      · exact hwrite.fail _
      · exact hwrite.count _
  · have htake : entry.content.take (maxEntryBytes + 1) = { bytes := maxEntryBytes + 1 } := by
      rw [Content.take, if_neg (by omega)]
    rw [htake, Nat.min_eq_right (by omega), decide_eq_false hfits, Bool.false_or]
    dsimp only
    rw [if_pos (by omega)]
    exact ((h.write _).removeFile luck.remove).fail _

/-- A turn keeps what there is, or copies the content of an entry. -/
theorem zipEntry_cases (hs : s.error = none) (item : ZipItem) :
    ((∀ entry name, ¬ZipOpens accept dest s item entry name) ∧
      Keeps dest s (s.zipEntry accept dest item)) ∨
    ∃ entry name, ZipOpens accept dest s item entry name ∧
      Writes dest name.path entry.copied (entry.stays item.luck) s
        (s.zipEntry accept dest item) := by
  have hfrom : ∀ {bytes rel kept u}, Writes dest rel bytes kept { s with asked := rel :: s.asked } u →
      Writes dest rel bytes kept s u := fun h => ⟨h.inside, h.written, h.files, h.dirs, h.fresh⟩
  unfold zipEntry
  cases hread : item.entry with
  | error e =>
    refine .inl ⟨fun _ _ h => ?_, .of_eq rfl rfl rfl⟩
    have hok := h.read
    rw [hread] at hok
    cases hok
  | ok entry =>
    dsimp only
    cases hname : entry.enclosedName with
    | none =>
      refine .inl ⟨fun other _ h => ?_, .of_eq rfl rfl rfl⟩
      have hok := h.read
      rw [hread] at hok
      cases hok
      have hsome := h.named
      rw [hname] at hsome
      cases hsome
    | some name =>
      have honly : ¬ZipOpens accept dest s item entry name →
          ∀ other name', ¬ZipOpens accept dest s item other name' := by
        intro hno other name' h
        have hok := h.read
        rw [hread] at hok
        cases hok
        have hsome := h.named
        rw [hname] at hsome
        cases hsome
        exact hno h
      dsimp only
      rw [join_of_inside name.inside dest, if_neg (by simp [startsWith])]
      by_cases haccept : accept s.asked name.path = true
      · rw [if_neg (by simp [haccept])]
        by_cases hlink : entry.isSymlink = true
        · rw [if_pos hlink]
          refine .inl ⟨honly fun h => ?_, .of_eq rfl rfl rfl⟩
          rw [h.plain.1] at hlink
          cases hlink
        · rw [if_neg hlink]
          by_cases hdir : entry.isDir = true
          · rw [if_pos hdir]
            refine .inl ⟨honly fun h => ?_, ?_⟩
            · rw [h.plain.2] at hdir
              cases hdir
            · obtain ⟨hf, hw, hd⟩ := createDirAll_keeps
                (s := { s with asked := name.path :: s.asked }) name.inside
                (List.prefix_refl (dest ++ name.path)) item.luck.createDirAll
              exact ⟨hf, hw, hd⟩
          · rw [if_neg hdir]
            unfold zipFile
            split
            next hlarge =>
              refine .inl ⟨honly fun h => ?_, .of_eq rfl rfl rfl⟩
              have hdeclared := h.declared
              simp only [Bool.or_eq_true, decide_eq_true_eq] at hlarge
              omega
            next hsmall =>
              rcases openFile_cases dest (s := { s with asked := name.path :: s.asked }) hs
                name.inside item.luck with ⟨herror, hkeeps⟩ | ⟨hopen, hwrites⟩
              · rw [andThen, if_pos herror]
                refine .inl ⟨honly fun h => ?_, ⟨hkeeps.files, hkeeps.written, hkeeps.dirs⟩⟩
                rw [h.created] at herror
                cases herror
              · rw [andThen, if_neg (by simp [hopen])]
                refine .inr ⟨entry, name, ⟨hread, hname, haccept, ⟨?_, ?_⟩, ?_, hopen⟩,
                  hfrom (zipCopy_writes hwrites)⟩
                · simpa using hlink
                · simpa using hdir
                · simpa using hsmall
      · rw [if_pos (by simp [haccept])]
        exact .inl ⟨honly fun h => haccept h.accepted, .of_eq rfl rfl rfl⟩

/-! ### Tar -/

/-- The content of the entry is copied: it passes the filter and the check of its declared
    size, and its file can be created. -/
structure TarOpens (accept : Accept) (dest : Path) (s : Extraction) (item : TarItem)
    (entry : TarEntry) (path : Path) (size : Nat) : Prop where
  counted : s.count < maxEntries
  read : item.entry = .ok entry
  named : entry.path = some path
  inside : relative path ≠ [] ∧ .parentDir ∉ relative path
  accepted : accept s.asked (relative path) = true
  plain : entry.entryType = .regular ∨ entry.entryType = .gnuSparse
  sized : entry.size = .ok size
  declared : size ≤ maxEntryBytes ∧ saturatingAdd s.totalBytes size ≤ maxTotalBytes
  created : (openFile { s with count := s.count + 1, asked := relative path :: s.asked }
    (dest ++ relative path) item.luck).error = none

theorem relative_inside {path : Path} (h : .parentDir ∉ relative path) :
    staysInside 0 (relative path) = true := by
  refine staysInside_of_plain _ 0 fun c hc => ?_
  cases c with
  | normal name => exact .inr ⟨name, rfl⟩
  | curDir => exact .inl rfl
  | parentDir => exact absurd hc h
  | drive | rootDir => simp [relative] at hc

theorem tarEntry_cases (hs : s.error = none) (item : TarItem) :
    ((∀ entry path size, ¬TarOpens accept dest s item entry path size) ∧
      Keeps dest s (s.tarEntry accept dest item)) ∨
    ∃ entry path size, TarOpens accept dest s item entry path size ∧
      Writes dest (relative path) entry.content.bytes true s (s.tarEntry accept dest item) := by
  have hfrom : ∀ {bytes rel kept u},
      Writes dest rel bytes kept { s with count := s.count + 1, asked := rel :: s.asked } u →
      Writes dest rel bytes kept s u := fun h => ⟨h.inside, h.written, h.files, h.dirs, h.fresh⟩
  have hkeep : ∀ {rel u},
      Keeps dest { s with count := s.count + 1, asked := rel :: s.asked } u → Keeps dest s u :=
    fun h => ⟨h.files, h.written, h.dirs⟩
  unfold tarEntry
  dsimp only
  split
  next hmany => exact .inl ⟨fun _ _ _ h => by have := h.counted; omega, .of_eq rfl rfl rfl⟩
  next hcount =>
    cases hread : item.entry with
    | error e =>
      refine .inl ⟨fun _ _ _ h => ?_, .of_eq rfl rfl rfl⟩
      have hok := h.read
      rw [hread] at hok
      cases hok
    | ok entry =>
      dsimp only
      cases hpath : entry.path with
      | none =>
        refine .inl ⟨fun other _ _ h => ?_, .of_eq rfl rfl rfl⟩
        have hok := h.read
        rw [hread] at hok
        cases hok
        have hsome := h.named
        rw [hpath] at hsome
        cases hsome
      | some path =>
        have honly : (∀ size, ¬TarOpens accept dest s item entry path size) →
            ∀ other path' size, ¬TarOpens accept dest s item other path' size := by
          intro hno other path' size h
          have hok := h.read
          rw [hread] at hok
          cases hok
          have hsome := h.named
          rw [hpath] at hsome
          cases hsome
          exact hno size h
        dsimp only
        by_cases houtside : ((relative path).isEmpty || (relative path).contains .parentDir) = true
        · rw [if_pos houtside]
          refine .inl ⟨honly fun _ h => ?_, .of_eq rfl rfl rfl⟩
          simp only [Bool.or_eq_true, List.isEmpty_iff, List.contains_iff_mem] at houtside
          exact houtside.elim h.inside.1 h.inside.2
        · rw [if_neg houtside]
          simp only [Bool.or_eq_true, List.isEmpty_iff, List.contains_iff_mem, not_or] at houtside
          have hinside := relative_inside houtside.2
          rw [join_of_inside hinside dest, if_neg (by simp [startsWith])]
          by_cases haccept : accept s.asked (relative path) = true
          · rw [if_neg (by simp [haccept])]
            cases htype : entry.entryType with
            | directory =>
              refine .inl ⟨honly fun _ h => ?_, ?_⟩
              · rcases h.plain with hplain | hplain <;> rw [htype] at hplain <;> cases hplain
              · exact hkeep (createDirAll_keeps hinside (List.prefix_refl _) _)
            | link | symlink | special =>
              refine .inl ⟨honly fun _ h => ?_, .of_eq rfl rfl rfl⟩
              rcases h.plain with hplain | hplain <;> rw [htype] at hplain <;> cases hplain
            | regular | gnuSparse =>
              dsimp only
              unfold tarFile
              cases hsize : entry.size with
              | error e =>
                refine .inl ⟨honly fun _ h => ?_, .of_eq rfl rfl rfl⟩
                have hsized := h.sized
                rw [hsize] at hsized
                cases hsized
              | ok size =>
                dsimp only
                split
                next hlarge =>
                  refine .inl ⟨honly fun other h => ?_, .of_eq rfl rfl rfl⟩
                  have hsized := h.sized
                  rw [hsize] at hsized
                  cases hsized
                  have hdeclared := h.declared
                  simp only [Bool.or_eq_true, decide_eq_true_eq] at hlarge
                  omega
                next hsmall =>
                  rcases openFile_cases dest
                    (s := { s with count := s.count + 1, asked := relative path :: s.asked }) hs
                    hinside item.luck with ⟨herror, hkeeps⟩ | ⟨hopen, hwrites⟩
                  · rw [andThen, if_pos herror]
                    refine .inl ⟨honly fun _ h => ?_, hkeep hkeeps⟩
                    rw [h.created] at herror
                    cases herror
                  · rw [andThen, if_neg (by simp [hopen])]
                    refine .inr ⟨entry, path, size, ⟨by omega, hread, hpath, houtside, haccept,
                      by simp [htype], hsize, by simpa using hsmall, hopen⟩, hfrom ?_⟩
                    split
                    · exact (hwrites.write _).fail _
                    · exact (hwrites.write _).count _
          · rw [if_pos (by simp [haccept])]
            exact .inl ⟨honly fun _ h => haccept h.accepted, .of_eq rfl rfl rfl⟩

/-! ## Where files and directories are -/

/-- The name of an entry that is a file, and that the filter accepts at some time. -/
def Archive.Plain (accept : Accept) (rel : Path) : Archive → Prop
  | .unreadable _ => False
  | .zip items => ∃ item ∈ items, ∃ entry name asked, item.entry = .ok entry ∧
      entry.enclosedName = some name ∧ name.path = rel ∧ accept asked rel = true ∧
      entry.isSymlink = false ∧ entry.isDir = false
  | .tarGz items => ∃ item ∈ items, ∃ entry path asked, item.entry = .ok entry ∧
      entry.path = some path ∧ relative path = rel ∧ accept asked rel = true ∧
      (entry.entryType = .regular ∨ entry.entryType = .gnuSparse)

/-- What was created is below the destination, and each file comes from a plain one. -/
structure Confined (dest : Path) (plain : Path → Prop) (s : Extraction) : Prop where
  base : place dest ∈ s.dirs
  dirs : ∀ d ∈ s.dirs, d ∈ dest.inits.map place ∨ place dest <+: d
  files : ∀ f ∈ s.files, place dest <+: f.1 ∧ f.1 ≠ place dest ∧
    ∃ rel, plain rel ∧ f.1 = place (dest ++ rel)

/-- The bounds on the sizes of files and on all that is written. -/
structure WithinLimits (s : Extraction) : Prop where
  files : ∀ f ∈ s.files, f.2 ≤ maxEntryBytes
  total : s.written ≤ maxTotalBytes

variable {plain : Path → Prop}

/-- The directories on the way to a place below the destination. -/
theorem places_of_prefix {rel q : Path} (hinside : staysInside 0 rel = true)
    (hq : q <+: dest ++ rel) :
    ∀ d ∈ q.inits.map place, d ∈ dest.inits.map place ∨ place dest <+: d := by
  intro d hd
  obtain ⟨p, hp, rfl⟩ := List.mem_map.mp hd
  have hp := (List.mem_inits ..).mp hp |>.trans hq
  rcases List.prefix_or_prefix_of_prefix hp (List.prefix_append dest rel) with hshort | ⟨start, rfl⟩
  · exact .inl (List.mem_map_of_mem ((List.mem_inits ..).mpr hshort))
  · obtain ⟨rest, rfl⟩ := (List.prefix_append_right_inj dest).mp hp
    exact .inr (prefix_place (staysInside_append _ _ 0 hinside) dest)

theorem Confined.keeps (h : Confined dest plain s) (hk : Keeps dest s t) :
    Confined dest plain t := by
  rcases hk.dirs with hdirs | ⟨q, rel, hinside, hq, hdirs⟩
  · exact ⟨by rw [hdirs]; exact h.base, by rw [hdirs]; exact h.dirs, by rw [hk.files]; exact h.files⟩
  · refine ⟨?_, fun d hd => ?_, by rw [hk.files]; exact h.files⟩
    · rw [hdirs]
      exact List.mem_append_right _ h.base
    · rw [hdirs] at hd
      rcases List.mem_append.mp hd with hnew | hold
      · exact places_of_prefix hinside hq d hnew
      · exact h.dirs d hold

theorem Confined.writes {rel : Path} {bytes : Nat} {kept : Bool} (h : Confined dest plain s)
    (hw : Writes dest rel bytes kept s t) (hplain : plain rel) : Confined dest plain t := by
  have hbase : place dest ∈ t.dirs := by
    rw [hw.dirs]
    exact List.mem_append_right _ h.base
  refine ⟨hbase, fun d hd => ?_, fun f hf => ?_⟩
  · rw [hw.dirs] at hd
    rcases List.mem_append.mp hd with hnew | hold
    · exact places_of_prefix hw.inside (List.dropLast_prefix _) d hnew
    · exact h.dirs d hold
  · rw [hw.files] at hf
    have hold : f ∈ s.without (dest ++ rel) → f ∈ s.files := fun hmem => (List.mem_filter.mp hmem).1
    split at hf
    · rcases List.mem_cons.mp hf with rfl | hf
      · -- The place of the new file is no directory, and the destination is one.
        refine ⟨prefix_place hw.inside dest, fun heq => hw.fresh ?_, rel, hplain, rfl⟩
        rwa [show place (dest ++ rel) = place dest from heq]
      · exact h.files f (hold hf)
    · exact h.files f (hold hf)

theorem WithinLimits.keeps (h : WithinLimits s) (hk : Keeps dest s t) : WithinLimits t :=
  ⟨by rw [hk.files]; exact h.files, by rw [hk.written]; exact h.total⟩

theorem WithinLimits.writes_iff {rel : Path} {bytes : Nat} {kept : Bool} (h : WithinLimits s)
    (hw : Writes dest rel bytes kept s t) :
    WithinLimits t ↔ s.written + bytes ≤ maxTotalBytes ∧ (kept = true → bytes ≤ maxEntryBytes) := by
  have hold : ∀ f ∈ s.without (dest ++ rel), f.2 ≤ maxEntryBytes := fun f hf =>
    h.files f (List.mem_filter.mp hf).1
  constructor
  · intro ht
    refine ⟨hw.written ▸ ht.total, fun hkept => ?_⟩
    have hfiles := ht.files
    rw [hw.files, if_pos hkept] at hfiles
    exact hfiles _ List.mem_cons_self
  · rintro ⟨htotal, hsize⟩
    refine ⟨fun f hf => ?_, hw.written ▸ htotal⟩
    rw [hw.files] at hf
    split at hf
    next hkept =>
      rcases List.mem_cons.mp hf with rfl | hf
      · exact hsize hkept
      · exact hold f hf
    next => exact hold f hf

theorem confined_start (dest : Path) (plain : Path → Prop) : Confined dest plain (start dest) where
  base := List.mem_map_of_mem ((List.mem_inits ..).mpr (List.prefix_refl dest))
  dirs _ hd := .inl hd
  files _ hf := absurd hf List.not_mem_nil

theorem withinLimits_start (dest : Path) : WithinLimits (start dest) :=
  ⟨fun _ hf => absurd hf List.not_mem_nil, Nat.zero_le _⟩

theorem confined_openZip (dest : Path) (plain : Path → Prop) (items : List ZipItem) :
    Confined dest plain (openZip dest items) := by
  obtain ⟨hbase, hdirs, hfiles⟩ := confined_start dest plain
  unfold openZip
  split
  · exact ⟨hbase, hdirs, hfiles⟩
  · exact ⟨hbase, hdirs, hfiles⟩

theorem withinLimits_openZip (dest : Path) (items : List ZipItem) :
    WithinLimits (openZip dest items) := by
  obtain ⟨hfiles, htotal⟩ := withinLimits_start dest
  unfold openZip
  split
  · exact ⟨hfiles, htotal⟩
  · exact ⟨hfiles, htotal⟩

/-! ## Whole archives -/

theorem zip_step {item : ZipItem} {os : List Unit}
    (h : (zipMachine accept dest).step s item = some (t, os)) :
    s.error = none ∧ t = s.zipEntry accept dest item := by
  unfold zipMachine at h
  dsimp only at h
  split at h
  · cases h
  next hnone =>
    cases h
    exact ⟨by simpa using hnone, rfl⟩

theorem tar_step {item : TarItem} {os : List Unit}
    (h : (tarMachine accept dest).step s item = some (t, os)) :
    s.error = none ∧ t = s.tarEntry accept dest item := by
  unfold tarMachine at h
  dsimp only at h
  split at h
  · cases h
  next hnone =>
    cases h
    exact ⟨by simpa using hnone, rfl⟩

/-- Whatever the archive, all that is created is below the destination. -/
theorem extract_confined (accept : Accept) (dest : Path) (archive : Archive) (n : Nat) :
    Confined dest (archive.Plain accept) (archive.extract accept dest n) := by
  cases archive with
  | unreadable e =>
    obtain ⟨hbase, hdirs, hfiles⟩ := confined_start dest ((Archive.unreadable e).Plain accept)
    exact ⟨hbase, hdirs, hfiles⟩
  | zip items =>
    refine Machine.advance_invariant (fun s item t os hmem hs hstep => ?_)
      (confined_openZip dest _ items)
    obtain ⟨hrunning, rfl⟩ := zip_step hstep
    rcases zipEntry_cases hrunning item with ⟨-, hkeeps⟩ | ⟨entry, name, hopens, hwrites⟩
    · exact hs.keeps hkeeps
    · exact hs.writes hwrites ⟨item, List.mem_of_mem_take hmem, entry, name, s.asked, hopens.read,
        hopens.named, rfl, hopens.accepted, hopens.plain⟩
  | tarGz items =>
    refine Machine.advance_invariant (fun s item t os hmem hs hstep => ?_) (confined_start dest _)
    obtain ⟨hrunning, rfl⟩ := tar_step hstep
    rcases tarEntry_cases hrunning item with ⟨-, hkeeps⟩ | ⟨entry, path, size, hopens, hwrites⟩
    · exact hs.keeps hkeeps
    · exact hs.writes hwrites ⟨item, List.mem_of_mem_take hmem, entry, path, s.asked, hopens.read,
        hopens.named, rfl, hopens.accepted, hopens.plain⟩

/-- What is copied of the entry fits in the bounds, and a file that is too large is removed. -/
def ZipFits (accept : Accept) (dest : Path) (s : Extraction) (item : ZipItem) : Prop :=
  ∀ entry name, ZipOpens accept dest s item entry name →
    s.written + entry.copied ≤ maxTotalBytes ∧
      (maxEntryBytes < entry.content.bytes → item.luck.remove = none)

/-- The content of the entry fits in the bounds, as its declared size does. -/
def TarFits (accept : Accept) (dest : Path) (s : Extraction) (item : TarItem) : Prop :=
  ∀ entry path size, TarOpens accept dest s item entry path size →
    s.written + entry.content.bytes ≤ maxTotalBytes ∧ entry.content.bytes ≤ maxEntryBytes

/-- Every entry whose content is copied fits, in the state in which its turn comes. -/
def Archive.Fits (accept : Accept) (dest : Path) : Archive → Prop
  | .unreadable _ => True
  | .zip items => (zipMachine accept dest).Along
      (fun s item => s.error = none → ZipFits accept dest s item) (openZip dest items) items
  | .tarGz items => (tarMachine accept dest).Along
      (fun s item => s.error = none → TarFits accept dest s item) (start dest) items

theorem ZipEntry.stays_iff (entry : ZipEntry) (luck : Luck) :
    (entry.stays luck = true → entry.copied ≤ maxEntryBytes) ↔
      (maxEntryBytes < entry.content.bytes → luck.remove = none) := by
  unfold ZipEntry.stays ZipEntry.copied
  by_cases hfits : entry.content.bytes ≤ maxEntryBytes
  · exact ⟨fun _ hlarge => absurd hfits (by omega), fun _ _ => (Nat.min_le_left ..).trans hfits⟩
  · cases hremove : luck.remove with
    | none => simp [hfits]
    | some e =>
      simp only [Option.isSome_some, Bool.or_true, reduceCtorEq, imp_false, forall_const]
      omega

theorem zip_fits_iff (s : Extraction) (item : ZipItem) (hs : WithinLimits s) :
    (∀ t os, (zipMachine accept dest).step s item = some (t, os) → WithinLimits t) ↔
      (s.error = none → ZipFits accept dest s item) := by
  by_cases hrunning : s.error = none
  · have hnext : (∀ t os, (zipMachine accept dest).step s item = some (t, os) → WithinLimits t) ↔
        WithinLimits (s.zipEntry accept dest item) := by
      have hstep : (zipMachine accept dest).step s item = some (s.zipEntry accept dest item, []) := by
        simp [zipMachine, hrunning]
      exact ⟨fun h => h _ _ hstep, fun h t os ht => (zip_step ht).2 ▸ h⟩
    rw [hnext]
    rcases zipEntry_cases hrunning item with ⟨hno, hkeeps⟩ | ⟨entry, name, hopens, hwrites⟩
    · exact ⟨fun _ _ entry name h => absurd h (hno entry name), fun _ => hs.keeps hkeeps⟩
    · rw [hs.writes_iff hwrites, ZipEntry.stays_iff]
      refine ⟨fun h _ other _ hother => ?_, fun h => h hrunning entry name hopens⟩
      have hread := hother.read
      rw [hopens.read] at hread
      cases hread
      exact h
  · exact ⟨fun _ h => absurd h hrunning, fun _ t os ht => absurd (zip_step ht).1 hrunning⟩

theorem tar_fits_iff (s : Extraction) (item : TarItem) (hs : WithinLimits s) :
    (∀ t os, (tarMachine accept dest).step s item = some (t, os) → WithinLimits t) ↔
      (s.error = none → TarFits accept dest s item) := by
  by_cases hrunning : s.error = none
  · have hnext : (∀ t os, (tarMachine accept dest).step s item = some (t, os) → WithinLimits t) ↔
        WithinLimits (s.tarEntry accept dest item) := by
      have hstep : (tarMachine accept dest).step s item = some (s.tarEntry accept dest item, []) := by
        simp [tarMachine, hrunning]
      exact ⟨fun h => h _ _ hstep, fun h t os ht => (tar_step ht).2 ▸ h⟩
    rw [hnext]
    rcases tarEntry_cases hrunning item with ⟨hno, hkeeps⟩ | ⟨entry, path, size, hopens, hwrites⟩
    · exact ⟨fun _ _ entry path size h => absurd h (hno entry path size),
        fun _ => hs.keeps hkeeps⟩
    · rw [hs.writes_iff hwrites]
      refine ⟨fun h _ other _ _ hother => ?_, fun h => ?_⟩
      · have hread := hother.read
        rw [hopens.read] at hread
        cases hread
        exact ⟨h.1, h.2 rfl⟩
      · obtain ⟨htotal, hsize⟩ := h hrunning entry path size hopens
        exact ⟨htotal, fun _ => hsize⟩
  · exact ⟨fun _ h => absurd h hrunning, fun _ t os ht => absurd (tar_step ht).1 hrunning⟩

/-- What an extraction promises at each of its entries. -/
structure Safe (accept : Accept) (dest : Path) (archive : Archive) (s : Extraction) : Prop where
  confined : Confined dest (archive.Plain accept) s
  limits : WithinLimits s

/-- All that is created is below the destination and comes from plain entries; the bounds on
    sizes hold from the first entry to the last exactly when the entries fit. -/
theorem extract_safe_iff (accept : Accept) (dest : Path) (archive : Archive) :
    (∀ n, Confined dest (archive.Plain accept) (archive.extract accept dest n)) ∧
    ((∀ n, Safe accept dest archive (archive.extract accept dest n)) ↔
      archive.Fits accept dest) := by
  have hconfined := extract_confined accept dest archive
  refine ⟨hconfined, ?_⟩
  have hlimits : (∀ n, WithinLimits (archive.extract accept dest n)) ↔
      archive.Fits accept dest := by
    cases archive with
    | unreadable e =>
      obtain ⟨hfiles, htotal⟩ := withinLimits_start dest
      exact ⟨fun _ => trivial, fun _ _ => ⟨hfiles, htotal⟩⟩
    | zip items => exact Machine.advance_iff zip_fits_iff (withinLimits_openZip dest items)
    | tarGz items => exact Machine.advance_iff tar_fits_iff (withinLimits_start dest)
  rw [← hlimits]
  exact ⟨fun h n => (h n).limits, fun h n => ⟨hconfined n, h n⟩⟩

/-- A file whose header says that it is empty. -/
def understated (name : String) (bytes : Nat) : ZipItem :=
  { entry := .ok
      { enclosedName := some ⟨[.normal name], rfl⟩, size := 0, content := ⟨bytes, none⟩ } }

/-- Three files of the greatest size pass the check of the total, and exceed it. -/
theorem extraction_exceeds : ¬∀ accept dest archive n,
    Safe accept dest archive (archive.extract accept dest n) := by
  intro hsafe
  have hlimits := (hsafe (fun _ _ => true) [.rootDir, .normal "d"]
    (.zip [understated "a" maxEntryBytes, understated "b" maxEntryBytes,
      understated "c" maxEntryBytes]) 3).limits.total
  have hwritten : (Archive.extract (fun _ _ => true) [.rootDir, .normal "d"] 3
      (.zip [understated "a" maxEntryBytes, understated "b" maxEntryBytes,
        understated "c" maxEntryBytes])).written = 3 * maxEntryBytes := by decide
  rw [hwritten] at hlimits
  exact absurd hlimits (by decide)

end CampusAuth.Update
