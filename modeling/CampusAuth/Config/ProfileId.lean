import Mathlib.Data.List.Basic

/- Which profile ids are file names (`config/service.rs`, `is_valid_profile_id`). -/
namespace CampusAuth.Config

/-- The device names Windows reserves. -/
def windowsReservedNames : List String :=
  ["CON", "PRN", "AUX", "NUL", "COM1", "COM2", "COM3", "COM4", "COM5", "COM6", "COM7", "COM8",
   "COM9", "LPT1", "LPT2", "LPT3", "LPT4", "LPT5", "LPT6", "LPT7", "LPT8", "LPT9"]

def isWindowsReservedName (id : String) : Bool :=
  windowsReservedNames.contains (String.ofList (id.toList.map Char.toUpper))

def isValidProfileId (id : String) : Bool :=
  if id.toList.isEmpty || id.utf8ByteSize > 64 then false
  else if !id.toList.all (fun c => c.isAlphanum || c == '_' || c == '-') then false
  else if isWindowsReservedName id then false
  else true

end CampusAuth.Config
