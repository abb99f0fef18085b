import CampusAuth.Lib.FileTree
import CampusAuth.Lib.Text

/- The uninstall plan and its execution (`uninstall/mod.rs`): what is refused, what is removed
   and what is kept.

   The paths are absolute. What cannot be removed, for whatever reason, is a parameter of the
   execution. -/
namespace CampusAuth.Uninstall
open Lib

def dataDirNames : List String := ["config", "tasks", "logs", "environment", "update"]

def dataDirLabels : List (String × String) :=
  [("config", "配置与方案"), ("tasks", "任务与脚本"), ("logs", "日志"),
   ("environment", "Python 环境"), ("update", "更新缓存")]

/-- The file system with what else the checks ask the system for. -/
structure Host where
  tree : FileTree
  windows : Bool
  home : Option Path
  temp : Path
  display : Path → String

namespace Host
variable (h : Host)

def mainExeName : String := if h.windows then "campus-auth.exe" else "campus-auth"

def helperExeName : String :=
  if h.windows then "campus-auth-helper.exe" else "campus-auth-helper"

end Host

/-- A path with one more name. -/
def child (dir : Path) (name : String) : Path := join dir [.normal name]

/-! ## Checks -/

def portableMarkerFile : String := "campus-auth.portable"

def portableMarkerContent : String := "campus-auth-portable-v1"

section
variable (h : Host)

/-- The marker is a short file of its own, no link, with the fixed text; the programs are there. -/
def isPortableDistribution (dir : Path) : Bool :=
  let markerOk :=
    match (h.tree.locate (child dir portableMarkerFile)).bind h.tree.node with
    | some (.file text) => text.utf8ByteSize ≤ 64 && trim text == portableMarkerContent
    | _ => false
  markerOk && h.tree.isFile (child dir h.mainExeName) && h.tree.isFile (child dir h.helperExeName)

def isSourceCheckout (dir : Path) : Bool :=
  h.tree.exists? (child dir ".git") ||
    (h.tree.isFile (child dir "Cargo.toml") && !isPortableDistribution h dir)

/-- The paths above an absolute one. -/
def properAncestors (path : Path) : List Path :=
  path.inits.dropLast.filter fun p => p.contains .rootDir

def eqIgnoreAsciiCase (a b : String) : Bool :=
  a.toList.map Char.toLower == b.toList.map Char.toLower

def isCargoTargetDir (dir : Path) : Bool :=
  let inTarget := dir.any fun c =>
    match c with
    | .normal name => eqIgnoreAsciiCase name "target"
    | _ => false
  inTarget &&
    (properAncestors dir).any fun ancestor => h.tree.isFile (child ancestor "Cargo.toml")

def sameDir (a b : Path) : Bool :=
  match h.tree.canonicalize a, h.tree.canonicalize b with
  | some x, some y => x == y
  | _, _ => false

/-- There is something above the path: it is no root. -/
def hasParent (path : Path) : Bool :=
  match path.getLast? with
  | some (.normal _) | some .curDir | some .parentDir => true
  | _ => false

def isHome (dir : Path) : Bool := h.home.any fun home => sameDir h dir home

def validateInstallDir (installDir : Path) : Except String Unit :=
  if !hasParent installDir then
    .error ("拒绝执行：" ++ h.display installDir ++ " 是文件系统根目录")
  else if isHome h installDir then .error "拒绝执行：该目录是用户主目录"
  else if sameDir h installDir h.temp then .error "拒绝执行：该目录是系统临时目录"
  else if isSourceCheckout h installDir then
    .error ("拒绝执行：" ++ h.display installDir ++
      " 看起来是源码仓库（含 .git，或含 Cargo.toml 但缺少有效便携分发标记）。" ++
      "源码工程不支持自动卸载；旧便携包请重新解压新版完整发布包后卸载。")
  else if isCargoTargetDir h installDir then
    .error ("拒绝执行：" ++ h.display installDir ++
      " 位于 cargo 构建输出（target/）之下，不是安装目录。" ++
      "开发实例的数据目录就在旁边，删掉会连构建产物一起没了；" ++
      "请把发布包解压到独立目录后再卸载。")
  else if !h.tree.isFile (child installDir h.mainExeName) &&
      !h.tree.isFile (child installDir h.helperExeName) then
    .error ("拒绝执行：" ++ h.display installDir ++ " 下既没有 " ++ h.mainExeName ++ " 也没有 " ++
      h.helperExeName ++ "，不像是安装目录")
  else .ok ()

def validateBasePath (basePath : Path) : Except String Unit :=
  if !hasParent basePath then
    .error ("拒绝执行：" ++ h.display basePath ++ " 是文件系统根目录")
  else if isHome h basePath then .error "拒绝执行：数据目录是用户主目录"
  else .ok ()

/-! ## The plan -/

def existingDataDirs (basePath : Path) : List (String × Path) :=
  (dataDirNames.map fun name => (name, child basePath name)).filter fun d => h.tree.exists? d.2

structure UninstallPlan where
  installDir : Path
  basePath : Path
  keepUserData : Bool
  sameDir : Bool
  dataDirs : List (String × Path)

/-- The data root lies in the program directory, as far as both can be found. -/
def nested (installDir basePath : Path) : Bool :=
  match h.tree.canonicalize installDir, h.tree.canonicalize basePath with
  | some install, some base => install.isPrefixOf base
  | _, _ => false

def buildPlan (installDir basePath : Path) (keepUserData : Bool) :
    Except String UninstallPlan := do
  validateInstallDir h installDir
  validateBasePath h basePath
  let same := sameDir h installDir basePath
  if keepUserData && !same && nested h installDir basePath then
    .error "无法保留嵌套在程序目录内的数据根目录：请先将数据迁移到程序目录外，或使用与程序相同的数据目录。"
  else
    .ok { installDir, basePath, keepUserData, sameDir := same,
          dataDirs := if keepUserData then [] else existingDataDirs h basePath }

/-! ## The execution -/

structure UninstallStep where
  label : String
  path : Path
  success : Bool
  message : String

/-- The report, with the places that are gone. -/
structure UninstallReport where
  steps : List UninstallStep := []
  kept : List String := []
  gone : List Place := []

/-- What cannot be removed, and the reason given. -/
structure Refusals where
  stuck : Place → Bool
  reason : String

def dirLabel (name : String) : String := (dataDirLabels.lookup name).getD name

def UninstallReport.pushRemoval (r : UninstallReport) (label : String) (path : Path)
    (result : Except String Unit) : UninstallReport :=
  match result with
  | .ok () => { r with steps := r.steps ++ [⟨label, path, true, "已删除"⟩] }
  | .error e => { r with steps := r.steps ++ [⟨label, path, false, e⟩] }

def Refusals.failure (io : Refusals) : String := "删除失败: " ++ io.reason

/-- `remove_dir_all` on an entry: whether all of it went. -/
def removeEntry (io : Refusals) (entry : Place) : Except String Unit :=
  if (h.tree.below entry).any io.stuck then .error io.failure else .ok ()

/-- A directory with everything in it; one that is not there has been removed. -/
def removeDirAll (io : Refusals) (path : Path) : Except String Unit × List Place :=
  if !h.tree.exists? path then (.ok (), [])
  else
    match h.tree.locate path with
    | some entry => (removeEntry h io entry, h.tree.removable io.stuck entry)
    | none => (.error io.failure, [])

structure Children where
  removed : List String := []
  failed : List (String × String) := []
  kept : List String := []
  gone : List Place := []

def removeChild (io : Refusals) (except : List String) (dir : Place) (r : Children)
    (name : String) : Children :=
  if except.contains name then { r with kept := r.kept ++ [name] }
  else
    let gone := r.gone ++ h.tree.removable io.stuck (dir ++ [name])
    match removeEntry h io (dir ++ [name]) with
    | .ok () => { r with removed := r.removed ++ [name], gone }
    | .error e => { r with failed := r.failed ++ [(name, e)], gone }

/-- The directory the path leads to. -/
def openDir (path : Path) : Option Place :=
  (h.tree.canonicalize path).filter fun place => h.tree.node place == some .dir

def removeChildrenExcept (io : Refusals) (dir : Path) (except : List String) : Children :=
  match openDir h dir with
  | none => { failed := [("读取目录", io.failure)] }
  | some place => (h.tree.names place).foldl (removeChild h io except place) {}

/-- The program directory itself, when nothing is left in it. -/
def removeEmptied (io : Refusals) (dir : Path) (r : UninstallReport) : UninstallReport :=
  match openDir h dir with
  | none => r.pushRemoval "程序目录（已清空）" dir (.error io.failure)
  | some place =>
    if (h.tree.names place).all fun name => r.gone.contains (place ++ [name]) then
      if io.stuck place then r.pushRemoval "程序目录（已清空）" dir (.error io.failure)
      else { r.pushRemoval "程序目录（已清空）" dir (.ok ()) with gone := r.gone ++ [place] }
    else r

/-- The labels of the data directories that are there. -/
def keptLabels (basePath : Path) : List String :=
  (dataDirNames.filter fun name => h.tree.exists? (child basePath name)).map dirLabel

/-- What the removal of the children reports. -/
def reportChildren (dir : Path) (c : Children) (r : UninstallReport) : UninstallReport :=
  let r := c.removed.foldl (fun r name => r.pushRemoval name (child dir name) (.ok ())) r
  let r := c.failed.foldl (fun r f => r.pushRemoval f.1 (child dir f.1) (.error f.2)) r
  let kept := c.kept.foldl (fun kept name =>
    if kept.contains (dirLabel name) then kept else kept ++ [dirLabel name]) r.kept
  { r with kept, gone := r.gone ++ c.gone }

def execute (io : Refusals) (plan : UninstallPlan) : UninstallReport :=
  if plan.keepUserData then
    let children := removeChildrenExcept h io plan.installDir dataDirNames
    removeEmptied h io plan.installDir
      (reportChildren plan.installDir children { kept := keptLabels h plan.basePath })
  else
    -- in the same directory the data goes with the program
    let dirs := if plan.sameDir then [] else plan.dataDirs
    let r := dirs.foldl (fun (r : UninstallReport) d =>
      let (result, gone) := removeDirAll h io d.2
      { r.pushRemoval (dirLabel d.1) d.2 result with gone := r.gone ++ gone }) {}
    let (result, gone) := removeDirAll h io plan.installDir
    { r.pushRemoval "程序目录" plan.installDir result with gone := r.gone ++ gone }

end

end CampusAuth.Uninstall
