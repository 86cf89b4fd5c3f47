import ValueNumbering.Text.Lines

/-! What the program says about its arguments. -/

namespace ValueNumbering.CommandLine

def usage : String := Text.unlines
  ["usage: lvn-opt [-h] [-passes PASSES] [--pass-config PASS_CONFIG]",
    "               [--print-metrics] [--print-ir] [--no-intern-constants]",
    "               [--column-width COLUMN_WIDTH]",
    "               input"]

def help : String := usage ++ Text.unlines
  ["",
    "Run local value numbering over LLVM-style textual IR",
    "",
    "positional arguments:",
    "  input                 IR file to analyse ('-' reads stdin)",
    "",
    "options:",
    "  -h, --help            show this help message and exit",
    "  -passes PASSES, --passes PASSES",
    "                        Comma-separated pass pipeline (default: value-",
    "                        numbering)",
    "  --pass-config PASS_CONFIG",
    "                        Path to JSON config file for pass options",
    "  --print-metrics       Print pass metrics and diagnostics",
    "  --print-ir            Print the parsed IR before running passes",
    "  --no-intern-constants",
    "                        Number every literal occurrence separately",
    "  --column-width COLUMN_WIDTH",
    "                        Column the instruction text is padded to (default: 40)"]

end ValueNumbering.CommandLine
