/-!
# Usage texts

What the command line says about itself.
-/

namespace Dcpu.Command

/-- The name of the program. -/
def programName : String := "dcpu16-asm"

/-- The answer to a request for the version. -/
def versionText : String := programName ++ " 1.0.0\n"

/-- The usage line. -/
def usageText : String :=
  "usage: " ++ programName ++
    " [-h] [-o OUTPUT] [--no-output] [-q] [-v] [--version] [input]\n"

/-- The lines of the help text below the usage line. -/
def helpLines : List String :=
  ["",
   "DCPU-16 Assembler",
   "",
   "positional arguments:",
   "  input                 Input assembly file. Reads standard input if omitted",
   "                        or '-'.",
   "",
   "options:",
   "  -h, --help            show this help message and exit",
   "  -o OUTPUT, --output OUTPUT",
   "                        Output binary file. Defaults to the input name plus",
   "                        '.o' (out.s.o for stdin).",
   "  --no-output           Do not write the binary file",
   "  -q, --quiet           Do not print the assembly listing",
   "  -v, --verbose         Enable verbose output",
   "  --version             show program's version number and exit",
   "",
   "Examples:",
   "  dcpu16-asm programs/loop.s                 # listing to stdout, binary to programs/loop.s.o",
   "  dcpu16-asm programs/loop.s -o loop.bin -q",
   "  cat programs/loop.s | dcpu16-asm",
   "        "]

/-- The answer to a request for help. -/
def helpText : String :=
  usageText ++ String.join (helpLines.map (· ++ "\n"))

end Dcpu.Command
