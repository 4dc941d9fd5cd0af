import Walkthrough.Invocation.Flag

/-!
How the program is used, as it tells a user who asks for help or whose command line it refuses.
-/
namespace Walkthrough.Usage

def summary : String :=
  "usage: plainstep [-h] [-f FILE | -d DIR | --repl [SAVE_AS]]\n" ++
  "                 [-b \x7bchromium,firefox,webkit\x7d] [--headless] [-o OUTPUT]\n" ++
  "                 [--datatable DATATABLE] [--demo] [--config CONFIG]\n" ++
  "                 [--save-config]\n"

def help : String :=
  summary ++
  "\nRun plain-language UI test scripts against a real browser.\n" ++
  "\noptions:\n" ++
  "  -h, --help            show this help message and exit\n" ++
  "  -f FILE, --file FILE  script file to run\n" ++
  "  -d DIR, --dir DIR     directory of .txt scripts to run\n" ++
  "  --repl [SAVE_AS]      interactive mode; kept statements are saved to SAVE_AS\n" ++
  "  -b \x7bchromium,firefox,webkit\x7d, --browser \x7bchromium,firefox,webkit\x7d\n" ++
  "  --headless\n" ++
  "  -o OUTPUT, --output OUTPUT\n" ++
  "                        report directory\n" ++
  "  --datatable DATATABLE\n" ++
  "                        CSV with one run per row\n" ++
  "  --demo                highlight located elements\n" ++
  "  --config CONFIG       settings JSON file\n" ++
  "  --save-config         store the effective settings in the settings file,\n" ++
  "                        then run any given scripts\n"

def refusal (e : UsageError) : String := summary ++ "plainstep: error: " ++ e.message ++ "\n"

end Walkthrough.Usage
