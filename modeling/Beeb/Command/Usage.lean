/-
  The usage and help texts of the command line.

  Each help text begins with the usage.

  Key definitions include:
    * `Beeb.Command.topUsage`
    * `Beeb.Command.topHelp`
    * `Beeb.Command.listHelp`
    * `Beeb.Command.extractHelp`
    * `Beeb.Command.disassembleHelp`
-/

------------------------------------------------------------
-- The Program
------------------------------------------------------------

namespace Beeb

namespace Command

/- Lines of text, each ended by a line feed. -/
def paragraph
    (lines : List String) : String :=
  String.join (lines.map (· ++ "\n"))

/- The usage of the program. -/
def topUsage : String :=
  paragraph
    ["usage: bbcdisasm [-h] [-v] " ++
      "\x7blist,ls,extract,x,disasm,d\x7d ..."]

/- The help text of the program. -/
def topHelp : String :=
  topUsage ++
    paragraph
      ["",
        "Extract and disassemble programs from " ++
          "BBC Micro DFS disk images.",
        "",
        "positional arguments:",
        "  \x7blist,ls,extract,x,disasm,d\x7d",
        "    list (ls)           List a DFS disk image",
        "    extract (x)         Extract one or more files " ++
          "from a DFS disk image",
        "    disasm (d)          Disassemble a file",
        "",
        "options:",
        "  -h, --help            show this help message and exit",
        "  -v, --verbose         Log analysis details to stderr"]

end Command

end Beeb

------------------------------------------------------------
-- Commands
------------------------------------------------------------

namespace Beeb

namespace Command

/- The usage of the command that lists a disc. -/
def listUsage : String :=
  paragraph ["usage: bbcdisasm list [-h] image"]

/- The help text of the command that lists a disc. -/
def listHelp : String :=
  listUsage ++
    paragraph
      ["",
        "positional arguments:",
        "  image",
        "",
        "options:",
        "  -h, --help  show this help message and exit"]

/- The usage of the command that extracts files. -/
def extractUsage : String :=
  paragraph
    ["usage: bbcdisasm extract [-h] [--outdir OUTDIR] " ++
      "image [entries ...]"]

/- The help text of the command that extracts files. -/
def extractHelp : String :=
  extractUsage ++
    paragraph
      ["",
        "positional arguments:",
        "  image",
        "  entries          Catalog entries to extract; " ++
          "every entry when omitted",
        "",
        "options:",
        "  -h, --help       show this help message and exit",
        "  --outdir OUTDIR  Output directory for extracted files"]

/- The usage of the command that disassembles a file. -/
def disassembleUsage : String :=
  paragraph
    ["usage: bbcdisasm disasm [-h] [--loadaddr LOADADDR] " ++
        "[--codeaddrs CODEADDRS]",
      "                        [--definevar NAME=VALUE] " ++
        "[--out OUT]",
      "                        file [offset] [length]"]

/- The help text of the command that disassembles a file. -/
def disassembleHelp : String :=
  disassembleUsage ++
    paragraph
      ["",
        "positional arguments:",
        "  file",
        "  offset",
        "  length",
        "",
        "options:",
        "  -h, --help            show this help message and exit",
        "  --loadaddr LOADADDR   Load address of the code, " ++
          "used for addresses and",
        "                        branch targets",
        "  --codeaddrs CODEADDRS",
        "                        Comma separated addresses " ++
          "known to hold code",
        "  --definevar NAME=VALUE",
        "                        Define a variable substituted " ++
          "for matching absolute",
        "                        operands",
        "  --out OUT             Write the listing to a file " ++
          "instead of stdout"]

end Command

end Beeb
