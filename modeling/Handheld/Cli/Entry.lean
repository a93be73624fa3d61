import Handheld.Event

/-!
# What the program prints

An event is printed with its level, the part that reports it, and its text. The further lines of a
text are set in, so that every line at the margin begins an entry.
-/

namespace Handheld.Cli

/-- What a further line of an entry begins with. -/
def margin : List Char := List.replicate 4 ' '

/-- The characters of a text with the margin after each end of a line. -/
def setIn (text : List Char) : List Char :=
  text.flatMap fun c => if c = '\n' then c :: margin else [c]

def entry (e : Event) : String :=
  s!"{e.level.name} {e.source}: {String.ofList (setIn e.text.toList)}"

def version : String := "gb 0.1.0"

def helpLines : List String :=
  [version,
    "Game Boy emulator",
    "",
    "USAGE:",
    "    gb [FLAGS] [OPTIONS] <ROM>",
    "",
    "FLAGS:",
    "        --debug       Log at debug level",
    "    -h, --help        Prints help information",
    "        --headless    Run without a window",
    "        --no-sound    Ignore sound register writes",
    "        --trace       Log every instruction",
    "    -V, --version     Prints version information",
    "",
    "OPTIONS:",
    "        --dump <PATH>        Write the address space here on a fatal error",
    "        --fps <fps>          Frames per second [default: 60]",
    "        --frames <frames>    Stop after this many frames",
    "        --scale <scale>      Window scale: 1, 2, 4 or 8 [default: 4]",
    "        --speed <speed>      Speed multiplier; 0 is native speed [default: 0]",
    "",
    "ARGS:",
    "    <ROM>    Cartridge image"]

end Handheld.Cli
