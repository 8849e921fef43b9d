import Inventory.Settings.Basic
import Inventory.Version

/-! # What the program says about its settings -/

namespace Inventory

namespace Setting

def option (s : Setting) : String := "--" ++ s.name

end Setting

namespace Settings

def programName : String := "invdb-server"

def usage : String :=
  "\n".intercalate [
    "Inventory graph server",
    "",
    "Usage: " ++ programName ++ " [OPTIONS]",
    "",
    "Options:",
    "      --socket <SOCKET>             Socket path to listen on",
    "      --max-message-bytes <NUMBER>  Messages above this size are rejected",
    "      --log <LOG>                   What to log",
    "      --preload <FILE>              Chunks of a snapshot to begin with, as JSON",
    "  -h, --help                        Print help",
    "  -V, --version                     Print version"]

end Settings

namespace SettingsStop

def message : SettingsStop → String
  | .help => Settings.usage
  | .version => Settings.programName ++ " " ++ Inventory.version
  | .unknownArgument argument => "unexpected argument '" ++ argument ++ "' found"
  | .noValue setting => "a value is required for '" ++ setting.option ++ "' but none was supplied"
  | .badValue setting value => "invalid value '" ++ value ++ "' for '" ++ setting.option ++ "'"
  | .givenTwice setting => "the argument '" ++ setting.option ++ "' cannot be used multiple times"
  | .unneededValue argument => "unexpected value in '" ++ argument ++ "', no more were expected"

/-- Whether nothing was wrong with the arguments. -/
def isAnswer : SettingsStop → Bool
  | .help => true
  | .version => true
  | _ => false

end SettingsStop

end Inventory
