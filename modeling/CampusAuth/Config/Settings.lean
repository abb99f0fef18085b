import CampusAuth.Lib.Schema

/- The settings document (`config/schema.rs`) and how the start reads its file
   (`config/service.rs`, `load_or_init_settings`).

   The structs are tables of their fields, with kinds and defaults; `SettingsData` is a document
   that has exactly the fields, in the form in which it is written. -/
namespace CampusAuth.Config
open Lib

def currentConfigVersion : Nat := 10

def browserSettings : List (String × Kind) :=
  [("headless", .bool true), ("browser_channel", .text "msedge"),
   ("browser_custom_path", .text ""), ("custom_browser_engine", .text "chromium"),
   ("persistent_context", .bool false), ("pure_mode", .bool true), ("stealth_mode", .bool true),
   ("stealth_custom_script", .text ""), ("low_resource_mode", .bool false),
   ("disable_web_security", .bool false), ("browser_args", .text ""),
   ("viewport_width", .uint UInt32.size 1280), ("viewport_height", .uint UInt32.size 720),
   ("locale", .text "zh-CN"), ("timezone_id", .text "Asia/Shanghai"),
   ("ignore_https_errors", .bool true), ("user_agent", .text ""), ("extra_headers_json", .text ""),
   ("timeout", .uint UInt32.size 30), ("navigation_timeout", .uint UInt32.size 15),
   ("login_timeout", .uint UInt32.size 120), ("bind_proxy", .text ""),
   ("redirect_test_use_proxy", .bool false)]

def monitorSettings : List (String × Kind) :=
  [("check_interval", .uint UInt32.size 300),
   ("tcp_targets", .texts ["8.8.8.8:53", "114.114.114.114:53", "www.baidu.com:443"]),
   ("http_targets", .texts ["http://connect.rom.miui.com/generate_204",
     "http://connectivitycheck.platform.hicloud.com/generate_204",
     "http://wifi.vivo.com.cn/generate_204"]),
   ("url_targets", .texts ["http://captive.apple.com/hotspot-detect.html",
     "http://detectportal.firefox.com/success.txt",
     "http://www.msftconnecttest.com/connecttest.txt"]),
   ("url_expected_responses", .textMap [("http://captive.apple.com/hotspot-detect.html", "Success"),
     ("http://detectportal.firefox.com/success.txt", "success"),
     ("http://www.msftconnecttest.com/connecttest.txt", "Microsoft Connect Test")]),
   ("tcp_enabled", .bool false), ("http_enabled", .bool true), ("url_enabled", .bool false),
   ("disable_proxy", .bool true), ("profile_check_interval", .uint UInt32.size 180),
   ("tcp_timeout", .uint UInt32.size 2), ("http_timeout", .uint UInt32.size 10),
   ("url_timeout", .uint UInt32.size 10), ("auth_url_timeout", .uint UInt32.size 5),
   ("strict_login_mode", .bool true), ("post_login_delay", .uint UInt32.size 5)]

def pauseSettings : List (String × Kind) :=
  [("enabled", .bool true), ("start_hour", .uint UInt8.size 23), ("start_minute", .uint UInt8.size 0),
   ("end_hour", .uint UInt8.size 6), ("end_minute", .uint UInt8.size 0)]

def loggingSettings : List (String × Kind) :=
  [("level", .text "INFO"), ("file_enabled", .bool true), ("retention_days", .uint UInt32.size 7)]

def retrySettings : List (String × Kind) :=
  [("max_retries", .uint UInt32.size 3), ("retry_interval", .uint UInt32.size 5)]

def workerSettings : List (String × Kind) :=
  [("idle_timeout_seconds", .uint UInt32.size 300), ("keep_alive", .bool false)]

def appSettings : List (String × Kind) :=
  [("auto_start_browser", .bool true), ("runtime_mode", .text "full"),
   ("startup_action", .enum ["none", "monitor", "login_once"] "none"),
   ("port", .uint UInt16.size 50721), ("autostart_enabled", .bool false),
   ("task_notification", .bool true), ("show_tray", .bool true),
   ("auto_restart_hours", .uint UInt32.size 24)]

def updaterSettings : List (String × Kind) :=
  [("check_on_startup", .bool true), ("auto_check_enabled", .bool true),
   ("channel", .enum ["stable", "prerelease", "all"] "stable"),
   ("release_source_url",
     .text "https://api.github.com/repos/Misyra/Campus-Auth-rs/releases/latest"),
   ("check_interval_hours", .uint UInt32.size 24), ("use_proxy", .bool false),
   ("proxy_url", .text ""), ("proxy_port", .uint UInt16.size 7890)]

def globalConfig : List (String × Kind) :=
  [("browser", .struct browserSettings), ("monitor", .struct monitorSettings),
   ("pause", .struct pauseSettings), ("logging", .struct loggingSettings),
   ("retry_settings", .struct retrySettings), ("worker", .struct workerSettings),
   ("app", .struct appSettings), ("updater", .struct updaterSettings)]

def settingsData : List (String × Kind) :=
  [("config_version", .uint UInt32.size currentConfigVersion),
   ("active_profile_id", .text "default"), ("auto_switch", .bool false),
   ("global", .struct globalConfig)]

/-- The names are different, and every default passes its own check. -/
theorem settingsData_sound : (Kind.struct settingsData).sound = true := by decide

/-- A settings document with all its fields. -/
structure SettingsData where
  value : Json
  reads : (Kind.struct settingsData).read value = some value

namespace SettingsData

/-- `serde_json::from_value`; `value` is `to_value`. -/
def ofValue (j : Json) : Option SettingsData :=
  match h : (Kind.struct settingsData).read j with
  | some value => some ⟨value, Kind.read_read settingsData_sound h⟩
  | none => none

def default : SettingsData := ⟨(Kind.struct settingsData).default, Kind.read_default settingsData_sound⟩

theorem read_of_ofValue {j : Json} {s : SettingsData} (h : ofValue j = some s) :
    (Kind.struct settingsData).read j = some s.value := by
  unfold ofValue at h
  split at h
  next value hread =>
    cases h
    exact hread
  · cases h

theorem ofValue_value (s : SettingsData) : ofValue s.value = some s := by
  unfold ofValue
  split
  next value hread =>
    cases hread.symm.trans s.reads
    rfl
  next hread =>
    rw [s.reads] at hread
    cases hread

/-- The members, each read as itself. -/
theorem settled (s : SettingsData) : ∃ vs, s.value = .obj vs ∧ Kind.Settled settingsData vs := by
  have hread := s.reads
  have hsound := settingsData_sound
  rw [Kind.read] at hread
  rw [Kind.sound, Bool.and_eq_true] at hsound
  obtain ⟨members, -, h⟩ := Option.bind_eq_some_iff.mp hread
  obtain ⟨vs, hvs, heq⟩ := Option.map_eq_some_iff.mp h
  exact ⟨vs, heq.symm, Kind.settled_of_read hsound.2 hvs⟩

def configVersion (s : SettingsData) : Option Nat := (s.value.get "config_version").bind Json.asU64
def activeProfileId (s : SettingsData) : String := s.value.text "active_profile_id"
def globalSection (s : SettingsData) (name : String) : Option Json :=
  (s.value.get "global").bind (·.get name)
def port (s : SettingsData) : Option Nat :=
  ((s.globalSection "app").bind (·.get "port")).bind Json.asU64

end SettingsData

/-- What the start makes of a settings file that is JSON. -/
inductive Startup where
  | loaded (settings : SettingsData)
  | migrates (version : Nat)
  | versionTooHigh (version : Nat)
  | parseError

def loadOrInitSettings (value : Json) : Startup :=
  let version := ((value.get "config_version").bind Json.asU64).getD 1 % UInt32.size
  if version > currentConfigVersion then .versionTooHigh version
  else if version < currentConfigVersion then .migrates version
  else
    match SettingsData.ofValue value with
    | some settings => .loaded settings
    | none => .parseError

theorem read_of_loaded {file : Json} {s : SettingsData} (h : loadOrInitSettings file = .loaded s) :
    (Kind.struct settingsData).read file = some s.value := by
  unfold loadOrInitSettings at h
  dsimp only at h
  split at h
  · cases h
  split at h
  · cases h
  split at h
  next hvalue =>
    cases h
    exact SettingsData.read_of_ofValue hvalue
  · cases h

end CampusAuth.Config
