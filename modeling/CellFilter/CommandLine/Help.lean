import CellFilter.CommandLine.Arguments

/-!
# Help texts

What is printed when help is asked for, on the whole command or on one of its parts.
-/

namespace CellFilter.CommandLine

/-- The help text on a command, or on all of them. -/
def helpText : Option Topic → String
  | none =>
    "Inspect protobuf schema payloads for column filters\n\n" ++
    "Usage: proto-filter [OPTIONS] <COMMAND>\n\n" ++
    "Commands:\n" ++
    "  types    List message types found in descriptor sets\n" ++
    "  payload  Encode the schema payload for a message type\n" ++
    "  inspect  Decode a payload file and print its schema as JSON\n" ++
    "  config   Show the effective configuration\n" ++
    "  help     Print this message or the help of the given subcommand(s)\n\n" ++
    "Options:\n" ++
    "  -c, --config <CONFIG>  Explicit configuration file\n" ++
    "  -r, --root <ROOT>      Directories to scan for descriptor sets " ++
    "(overrides configuration)\n" ++
    "  -h, --help             Print help\n"
  | some .types =>
    "List message types found in descriptor sets\n\n" ++
    "Usage: proto-filter types\n\n" ++
    "Options:\n" ++
    "  -h, --help  Print help\n"
  | some .payload =>
    "Encode the schema payload for a message type\n\n" ++
    "Usage: proto-filter payload [OPTIONS] <TYPE_NAME>\n\n" ++
    "Arguments:\n" ++
    "  <TYPE_NAME>  Fully-qualified message type, e.g. example.ExampleProto\n\n" ++
    "Options:\n" ++
    "  -o, --output <OUTPUT>  Write the payload to this file\n" ++
    "  -h, --help             Print help\n"
  | some .inspect =>
    "Decode a payload file and print its schema as JSON\n\n" ++
    "Usage: proto-filter inspect <FILE>\n\n" ++
    "Arguments:\n" ++
    "  <FILE>  \n\n" ++
    "Options:\n" ++
    "  -h, --help  Print help\n"
  | some .config =>
    "Show the effective configuration\n\n" ++
    "Usage: proto-filter config [OPTIONS]\n\n" ++
    "Options:\n" ++
    "      --save <SAVE>  Save it to this file instead\n" ++
    "  -h, --help         Print help\n"

end CellFilter.CommandLine
