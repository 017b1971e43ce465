import SecurityDescriptor.CommandLine.Opt

/-!
# Usage text

What the command prints about itself.
-/

namespace SecurityDescriptor.CommandLine

/-- The forms of the arguments. -/
def usage : String :=
  "usage: sddump [-h] [-v] [--strict] [--format \x7bauto,hex,base64\x7d] [-o OUTFILE]\n"
    ++ "              infile\n"

/-- The whole help. -/
def help : String :=
  usage
    ++ "\n"
    ++ "Decodes nTSecurityDescriptor attribute values\n"
    ++ "\n"
    ++ "positional arguments:\n"
    ++ "  infile                File with one encoded security descriptor per line, -\n"
    ++ "                        for stdin\n"
    ++ "\n"
    ++ "options:\n"
    ++ "  -h, --help            show this help message and exit\n"
    ++ "  -v, --verbose         Verbosity, can be stacked\n"
    ++ "  --strict              Fail records whose declared ACL/ACE sizes do not match\n"
    ++ "                        the decoded data\n"
    ++ "  --format \x7bauto,hex,base64\x7d\n"
    ++ "                        Encoding of the input lines\n"
    ++ "  -o OUTFILE, --outfile OUTFILE\n"
    ++ "                        Output file. Defaults to stdout\n"
    ++ "\n"
    ++ "Only allow/deny ACEs (plain and object) are supported. Records with other ACE\n"
    ++ "types, such as SACL audit entries, fail to decode.\n"

/-- What is printed about wrong arguments. -/
def UsageError.report (e : UsageError) : String := usage ++ "sddump: error: " ++ e.message ++ "\n"

end SecurityDescriptor.CommandLine
