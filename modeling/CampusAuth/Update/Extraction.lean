import CampusAuth.Lib.Machine
import CampusAuth.Lib.Paths
import CampusAuth.Lib.Text

/- Extraction of archives (`utils/io.rs`, `extract_zip` and `extract_tar_gz`): entry by entry,
   until one of them is an error.

   An entry is what the libraries for archives make of it. The size its header declares and the
   bytes its content has are two things. The directory the archive is extracted to is there
   from the start, without links below it; the file system may refuse every request. -/
namespace CampusAuth.Update
open Lib

def maxEntries : Nat := 8192

def maxEntryBytes : Nat := 512 * 1024 * 1024

def maxTotalBytes : Nat := 1024 * 1024 * 1024

/-- The sum of two `u64`, or the greatest of them. -/
def saturatingAdd (a b : Nat) : Nat := min (a + b) (UInt64.size - 1)

/-! ## Archives -/

/-- The bytes that are copied until the content ends, or until reading or writing fails. -/
structure Content where
  bytes : Nat
  failure : Option Text := none

/-- What is copied of a content within a limit, and whether the copy fails. -/
def Content.take (content : Content) (limit : Nat) : Content :=
  if content.bytes < limit then content else { bytes := limit }

/-- The errors of the file system at an entry. -/
structure Luck where
  createDirAll : Option Text := none
  create : Option Text := none
  flush : Option Text := none
  remove : Option Text := none

structure ZipEntry where
  /-- The name, when it stays inside the directory it is put in. -/
  enclosedName : Option EnclosedPath
  isSymlink : Bool := false
  isDir : Bool := false
  size : Nat
  content : Content

structure ZipItem where
  entry : Except Text ZipEntry
  luck : Luck := {}

inductive EntryType where
  | regular
  | gnuSparse
  | directory
  | link
  | symlink
  | special (name : Text)

structure TarEntry where
  /-- The name as it is in the archive, when it can be read. -/
  path : Option Path
  entryType : EntryType
  size : Except Text Nat
  content : Content

structure TarItem where
  entry : Except Text TarEntry
  luck : Luck := {}

/-- A filter is asked for one name after the other, and may remember them. -/
abbrev Accept := List Path → Path → Bool

/-! ## The file system and the loop -/

structure Extraction where
  /-- The names the filter was asked for. -/
  asked : List Path := []
  count : Nat := 0
  totalBytes : Nat := 0
  dirs : List Place
  /-- The files that were created, with their sizes. -/
  files : List (Place × Nat) := []
  /-- All bytes that went to files. -/
  written : Nat := 0
  error : Option Text := none

namespace Extraction

def start (dest : Path) : Extraction := { dirs := dest.inits.map place }

def fail (s : Extraction) (e : Text) : Extraction := { s with error := some e }

/-- The rest of an entry, unless something failed. -/
def andThen (s : Extraction) (next : Extraction → Extraction) : Extraction :=
  if s.error.isSome then s else next s

def createDirAll (s : Extraction) (path : Path) (luck : Option Text) : Extraction :=
  match luck with
  | some e => s.fail e
  | none =>
    let places := path.inits.map place
    if s.files.any fun file => places.contains file.1 then s.fail "File exists".toList
    else { s with dirs := places ++ s.dirs }

def without (s : Extraction) (path : Path) : List (Place × Nat) :=
  s.files.filter (·.1 ≠ place path)

def create (s : Extraction) (path : Path) (luck : Option Text) : Extraction :=
  match luck with
  | some e => s.fail e
  | none =>
    if s.dirs.contains (place path) then s.fail "Is a directory".toList
    else { s with files := (place path, 0) :: s.without path }

/-- The directory of a file and the file itself, which is empty then. -/
def openFile (s : Extraction) (path : Path) (luck : Luck) : Extraction :=
  (s.createDirAll path.dropLast luck.createDirAll).andThen (·.create path luck.create)

def write (s : Extraction) (path : Path) (bytes : Nat) : Extraction :=
  { s with files := (place path, bytes) :: s.without path, written := s.written + bytes }

def removeFile (s : Extraction) (path : Path) (luck : Option Text) : Extraction :=
  match luck with
  | some _ => s
  | none => { s with files := s.without path }

/-! ### Zip -/

/-- The content of an entry, of which one byte more than allowed is copied. -/
def zipCopy (s : Extraction) (path : Path) (entry : ZipEntry) (luck : Luck) : Extraction :=
  let copied := entry.content.take (maxEntryBytes + 1)
  let s := s.write path copied.bytes
  match copied.failure with
  | some e => s.fail e
  | none =>
    if copied.bytes > maxEntryBytes then
      (s.removeFile path luck.remove).fail "zip 文件条目超过大小上限".toList
    else
      match luck.flush with
      | some e => s.fail e
      | none => { s with totalBytes := saturatingAdd s.totalBytes copied.bytes }

def zipFile (s : Extraction) (path : Path) (entry : ZipEntry) (luck : Luck) : Extraction :=
  if entry.size > maxEntryBytes || saturatingAdd s.totalBytes entry.size > maxTotalBytes then
    s.fail "zip 解压大小超过上限".toList
  else (s.openFile path luck).andThen (·.zipCopy path entry luck)

def zipEntry (s : Extraction) (accept : Accept) (dest : Path) (item : ZipItem) : Extraction :=
  match item.entry with
  | .error e => s.fail e
  | .ok entry =>
    match entry.enclosedName with
    | none => s
    | some name =>
      let outpath := join dest name.path
      if !startsWith outpath dest then s
      else
        let t := { s with asked := name.path :: s.asked }
        if !accept s.asked name.path then t
        else if entry.isSymlink then t.fail "压缩包含符号链接条目，已拒绝解压".toList
        else if entry.isDir then t.createDirAll outpath item.luck.createDirAll
        else t.zipFile outpath entry item.luck

/-! ### Tar -/

/-- The name without the roots it starts with. -/
def relative (path : Path) : Path :=
  path.filter fun
    | .rootDir | .drive _ => false
    | _ => true

def tarFile (s : Extraction) (path : Path) (entry : TarEntry) (luck : Luck) : Extraction :=
  match entry.size with
  | .error e => s.fail e
  | .ok size =>
    if size > maxEntryBytes || saturatingAdd s.totalBytes size > maxTotalBytes then
      s.fail "tar 解压大小超过上限".toList
    else
      (s.openFile path luck).andThen fun s =>
        let s := s.write path entry.content.bytes
        match entry.content.failure with
        | some e => s.fail e
        | none => { s with totalBytes := saturatingAdd s.totalBytes size }

def refused (kind : Text) : Text :=
  "tar 包包含不支持的特殊条目（".toList ++ kind ++ "），拒绝解压".toList

def tarEntry (s : Extraction) (accept : Accept) (dest : Path) (item : TarItem) : Extraction :=
  let s := { s with count := s.count + 1 }
  if s.count > maxEntries then s.fail "tar 条目数量超过上限".toList
  else
    match item.entry with
    | .error e => s.fail e
    | .ok entry =>
      match entry.path with
      | none => s
      | some path =>
        let rel := relative path
        if rel.isEmpty || rel.contains .parentDir then s
        else
          let outpath := join dest rel
          if !startsWith outpath dest then s
          else
            let t := { s with asked := rel :: s.asked }
            if !accept s.asked rel then t
            else
              match entry.entryType with
              | .directory => t.createDirAll outpath item.luck.createDirAll
              | .regular | .gnuSparse => t.tarFile outpath entry item.luck
              | .link => t.fail (refused "Link".toList)
              | .symlink => t.fail (refused "Symlink".toList)
              | .special kind => t.fail (refused kind)

end Extraction

/-! ## Whole archives -/

open Extraction

/-- The loop over the entries of a zip archive. -/
def zipMachine (accept : Accept) (dest : Path) : Machine Extraction ZipItem Unit where
  step s item := if s.error.isSome then none else some (s.zipEntry accept dest item, [])

def openZip (dest : Path) (items : List ZipItem) : Extraction :=
  if items.length > maxEntries then (start dest).fail "zip 条目数量超过上限".toList
  else start dest

def tarMachine (accept : Accept) (dest : Path) : Machine Extraction TarItem Unit where
  step s item := if s.error.isSome then none else some (s.tarEntry accept dest item, [])

inductive Archive where
  /-- The file is not there, or is no archive. -/
  | unreadable (e : Text)
  | zip (items : List ZipItem)
  | tarGz (items : List TarItem)

/-- What is there when the loop has come to the entry `n`; from the number of entries on,
    when it has ended. -/
def Archive.extract (accept : Accept) (dest : Path) (n : Nat) : Archive → Extraction
  | .unreadable e => (start dest).fail e
  | .zip items => (zipMachine accept dest).advance (openZip dest items) (items.take n)
  | .tarGz items => (tarMachine accept dest).advance (start dest) (items.take n)

end CampusAuth.Update
