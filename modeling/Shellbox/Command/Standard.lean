import Shellbox.Command.Amusement
import Shellbox.Command.Change
import Shellbox.Command.Columns
import Shellbox.Command.Echo
import Shellbox.Command.Encode
import Shellbox.Command.Environment
import Shellbox.Command.Find
import Shellbox.Command.Grep
import Shellbox.Command.Help
import Shellbox.Command.Inspect
import Shellbox.Command.Lines
import Shellbox.Command.Location
import Shellbox.Command.View

/-!
# The shipped commands

Every command with its category and its manual, in the order in which the catalog shows them.
-/

namespace Shellbox.Command

/-- A command with the hidden names that it has besides its own. -/
structure Shipped where
  name : String
  category : Category
  others : List String
  manual : Manual
  handler : Handler

/-- The commands that come with a shell. -/
def shipped : List Shipped := [
  { name := "pwd"
    category := .navigation
    others := []
    handler := pwd
    manual :=
    { summary := "Print working directory"
      usage := "pwd"
      examples := [
        "pwd                    # Show current directory"] } },
  { name := "cd"
    category := .navigation
    others := []
    handler := cd
    manual :=
    { summary := "Change directory"
      description :=
        "Without an argument, returns to the home directory."
      usage := "cd [DIRECTORY]"
      examples := [
        "cd /etc                # Go to /etc",
        "cd ..                  # Go to the parent directory",
        "cd ~                   # Go home"] } },
  { name := "ls"
    category := .navigation
    others := []
    handler := ls
    manual :=
    { summary := "List directory contents"
      description :=
        "Directories are listed before files, each group in name order."
      usage := "ls [-l] [-a] [PATH]"
      options := [
        "-l    Use a long listing format",
        "-a    Also list the . and .. entries"]
      examples := [
        "ls                     # List current directory",
        "ls -la ~/cyberops      # Long listing with . and .."] } },
  { name := "cat"
    category := .files
    others := []
    handler := cat
    manual :=
    { summary := "Display file contents"
      description :=
        "Concatenates files, separating them with a blank line. Reads piped input instead " ++
        "when there is any."
      usage := "cat [-n] [FILE...]"
      options := [
        "-n    Number all output lines"]
      examples := [
        "cat readme.txt         # Show a file",
        "cat -n /etc/passwd     # Show with line numbers"] } },
  { name := "head"
    category := .files
    others := []
    handler := head
    manual :=
    { summary := "Display first lines of file"
      usage := "head [-n N] [FILE]"
      options := [
        "-n N  Print the first N lines (default 10); -N is also accepted"]
      examples := [
        "head -n 3 readme.txt   # First three lines",
        "cat notes.txt | head -5"] } },
  { name := "tail"
    category := .files
    others := []
    handler := tail
    manual :=
    { summary := "Display last lines of file"
      usage := "tail [-n N] [FILE]"
      options := [
        "-n N  Print the last N lines (default 10); -N is also accepted"]
      examples := [
        "tail -n 3 readme.txt   # Last three lines"] } },
  { name := "less"
    category := .files
    others := []
    handler := less
    manual :=
    { summary := "View file contents"
      usage := "less FILE"
      examples := [
        "less readme.txt"] } },
  { name := "file"
    category := .files
    others := []
    handler := file
    manual :=
    { summary := "Determine file type"
      description :=
        "Inspects file content for known signatures."
      usage := "file FILE..."
      examples := [
        "file readme.txt        # readme.txt: ASCII text"] } },
  { name := "stat"
    category := .files
    others := []
    handler := stat
    manual :=
    { summary := "Display file status"
      usage := "stat FILE..."
      examples := [
        "stat readme.txt"] } },
  { name := "touch"
    category := .files
    others := []
    handler := touch
    manual :=
    { summary := "Create empty file"
      description :=
        "Existing files keep their content and get a new modification time."
      usage := "touch FILE..."
      examples := [
        "touch /tmp/notes.txt"] } },
  { name := "mkdir"
    category := .files
    others := []
    handler := mkdir
    manual :=
    { summary := "Create directory"
      usage := "mkdir [-p] DIRECTORY..."
      options := [
        "-p    Create parent directories as needed"]
      examples := [
        "mkdir /tmp/work",
        "mkdir -p /tmp/a/b/c"] } },
  { name := "rm"
    category := .files
    others := []
    handler := rm
    manual :=
    { summary := "Remove files/directories"
      usage := "rm [-r] [-f] FILE..."
      options := [
        "-r    Remove directories and their contents recursively",
        "-f    Ignore nonexistent files"]
      examples := [
        "rm /tmp/out.txt",
        "rm -r /tmp/work"] } },
  { name := "find"
    category := .files
    others := []
    handler := find
    manual :=
    { summary := "Search for files"
      description :=
        "Prints the full path of every matching entry below PATH."
      usage := "find [PATH] [-name PATTERN] [-type f|d]"
      options := [
        "-name PATTERN  Match names against a glob (case-insensitive)",
        "-type TYPE     Only files (f) or only directories (d)"]
      examples := [
        "find ~ -name \"*.txt\"",
        "find /etc -type f"] } },
  { name := "grep"
    category := .text
    others := []
    handler := grep
    manual :=
    { summary := "Search text patterns"
      description :=
        "Prints lines matching a regular expression. Exits with status 1 and no output " ++
        "when nothing matches."
      usage := "grep [-i] [-n] [-v] [-r] PATTERN [FILE...]"
      options := [
        "-i    Ignore case",
        "-n    Prefix each line with its line number",
        "-v    Select non-matching lines",
        "-r    Search directories recursively"]
      examples := [
        "grep -i flag ~/.flag.txt",
        "grep -rn Python ~/cyberops",
        "cat /etc/passwd | grep bash"] } },
  { name := "wc"
    category := .text
    others := []
    handler := wc
    manual :=
    { summary := "Count lines/words/characters"
      usage := "wc [-l] [-w] [-c] [FILE...]"
      options := [
        "-l    Print the line count",
        "-w    Print the word count",
        "-c    Print the character count"]
      examples := [
        "wc readme.txt",
        "cat readme.txt | wc -l"] } },
  { name := "sort"
    category := .text
    others := []
    handler := sort
    manual :=
    { summary := "Sort lines"
      usage := "sort [-r] [-n] [FILE]"
      options := [
        "-r    Reverse the result",
        "-n    Compare by leading numeric value"]
      examples := [
        "sort names.txt",
        "cat scores.txt | sort -rn"] } },
  { name := "uniq"
    category := .text
    others := []
    handler := uniq
    manual :=
    { summary := "Filter duplicate lines"
      description :=
        "Collapses runs of identical adjacent lines."
      usage := "uniq [-c] [-d] [FILE]"
      options := [
        "-c    Prefix lines with their number of occurrences",
        "-d    Only print lines that repeat"]
      examples := [
        "sort words.txt | uniq -c"] } },
  { name := "cut"
    category := .text
    others := []
    handler := cut
    manual :=
    { summary := "Extract columns from lines"
      description :=
        "Fields past the end of a line are skipped."
      usage := "cut -f LIST [-d DELIM] [FILE]"
      options := [
        "-f LIST   Fields to print, e.g. 1,3 or 2-4",
        "-d DELIM  Field delimiter (default TAB)"]
      examples := [
        "cut -d : -f 1,7 /etc/passwd"] } },
  { name := "tr"
    category := .text
    others := []
    handler := tr
    manual :=
    { summary := "Translate characters"
      description :=
        "Maps each character of SET1 to the character at the same position in SET2; extra " ++
        "characters in the longer set are ignored. Only works on piped input."
      usage := "tr SET1 SET2"
      options := [
        "-d    Delete characters in SET1"]
      examples := [
        "echo hello | tr el ip",
        "echo \"a-b-c\" | tr -d -"] } },
  { name := "base64"
    category := .encoding
    others := []
    handler := base64
    manual :=
    { summary := "Base64 encode/decode"
      description :=
        "Reads piped input, else the named file, else the argument text itself."
      usage := "base64 [-d] [TEXT|FILE]"
      options := [
        "-d, --decode   Decode instead of encode"]
      examples := [
        "base64 \"hello\"              # aGVsbG8=",
        "echo aGVsbG8= | base64 -d   # hello"] } },
  { name := "xxd"
    category := .encoding
    others := []
    handler := xxd
    manual :=
    { summary := "Make a hex dump or reverse one"
      usage := "xxd [-r] [FILE]"
      options := [
        "-r, --revert   Convert a hex string back to text"]
      examples := [
        "xxd readme.txt",
        "echo 68656c6c6f | xxd -r    # hello"] } },
  { name := "strings"
    category := .encoding
    others := []
    handler := strings
    manual :=
    { summary := "Print printable character runs"
      usage := "strings [-n MIN] [FILE]"
      options := [
        "-n MIN    Minimum run length (default 4)"]
      examples := [
        "strings ~/.flag.txt",
        "strings -n 8 data.bin"] } },
  { name := "md5sum"
    category := .encoding
    others := []
    handler := md5sum
    manual :=
    { summary := "Calculate MD5 hash"
      usage := "md5sum [FILE|TEXT]"
      examples := [
        "md5sum readme.txt",
        "echo -n hello | md5sum"] } },
  { name := "sha256sum"
    category := .encoding
    others := []
    handler := sha256sum
    manual :=
    { summary := "Calculate SHA256 hash"
      description :=
        "The digest is computed when the result is resolved."
      usage := "sha256sum [FILE|TEXT]"
      examples := [
        "sha256sum readme.txt",
        "echo -n hello | sha256sum"] } },
  { name := "rot13"
    category := .encoding
    others := []
    handler := rot13
    manual :=
    { summary := "ROT13 cipher"
      usage := "rot13 [TEXT...]"
      examples := [
        "rot13 \"Hello\"               # Uryyb",
        "echo Uryyb | rot13          # Hello"] } },
  { name := "rev"
    category := .encoding
    others := []
    handler := rev
    manual :=
    { summary := "Reverse characters of each line"
      usage := "rev [FILE|TEXT]"
      examples := [
        "rev \"stressed\"              # desserts",
        "cat /etc/hosts | rev"] } },
  { name := "echo"
    category := .utility
    others := []
    handler := echo
    manual :=
    { summary := "Print text to output"
      description :=
        "Joins its arguments with single spaces and ends the line with a newline."
      usage := "echo [-n] [-e] [STRING...]"
      options := [
        "-n    Do not output trailing newline",
        "-e    Enable interpretation of backslash escapes"]
      escapes := [
        "\\n    newline",
        "\\t    horizontal tab",
        "\\r    carriage return",
        "\\\\    backslash"]
      examples := [
        "echo \"Hello World\"",
        "echo -n \"No newline\"",
        "echo -e 'Line 1\\\\nLine 2'"] } },
  { name := "clear"
    category := .utility
    others := []
    handler := clear
    manual :=
    { summary := "Clear terminal screen"
      usage := "clear" } },
  { name := "help"
    category := .utility
    others := []
    handler := help
    manual :=
    { summary := "Show available commands"
      description :=
        "Without arguments, lists all commands by category. With a command name, shows " ++
        "detailed help for that command."
      usage := "help [COMMAND]"
      examples := [
        "help",
        "help grep"] } },
  { name := "man"
    category := .utility
    others := []
    handler := man
    manual :=
    { summary := "Display manual pages"
      description :=
        "Shows the full manual page for a command, including usage, options and examples."
      usage := "man COMMAND"
      examples := [
        "man echo",
        "man base64"] } },
  { name := "history"
    category := .utility
    others := []
    handler := history
    manual :=
    { summary := "Show command history"
      usage := "history [-c]"
      options := [
        "-c    Clear command history"]
      examples := [
        "history",
        "history -c"] } },
  { name := "whoami"
    category := .utility
    others := []
    handler := whoami
    manual :=
    { summary := "Print current user"
      usage := "whoami" } },
  { name := "date"
    category := .utility
    others := []
    handler := date
    manual :=
    { summary := "Display current date/time"
      usage := "date" } },
  { name := "uname"
    category := .utility
    others := []
    handler := uname
    manual :=
    { summary := "Print system information"
      usage := "uname [-a]"
      options := [
        "-a    Print all information"] } },
  { name := "alias"
    category := .utility
    others := []
    handler := aliasing
    manual :=
    { summary := "Manage command aliases"
      description :=
        "Without arguments, lists the current aliases. With NAME=VALUE, defines or " ++
        "replaces an alias."
      usage := "alias [NAME=VALUE]"
      examples := [
        "alias",
        "alias ll='ls -la'"] } },
  { name := "type"
    category := .utility
    others := []
    handler := type
    manual :=
    { summary := "Show command type"
      description :=
        "Tells whether each name is an alias, a builtin, or unknown."
      usage := "type COMMAND..."
      examples := [
        "type ls",
        "type ll"] } },
  { name := "sudo"
    category := .amusement
    others := []
    handler := elevate
    manual :=
    { summary := "Run a command as root"
      usage := "sudo COMMAND" } },
  { name := "cowsay"
    category := .amusement
    others := []
    handler := cowsay
    manual :=
    { summary := "ASCII cow with speech bubble"
      usage := "cowsay [MESSAGE...]"
      examples := [
        "cowsay hello"] } },
  { name := "matrix"
    category := .amusement
    others := ["cmatrix"]
    handler := matrix
    manual :=
    { summary := "Enter the Matrix"
      usage := "matrix" } },
  { name := "hack"
    category := .amusement
    others := []
    handler := hack
    manual :=
    { summary := "Hollywood-style hacking sequence"
      usage := "hack [TARGET]"
      examples := [
        "hack",
        "hack pentagon"] } },
  { name := "neofetch"
    category := .amusement
    others := []
    handler := neofetch
    manual :=
    { summary := "Display system info"
      usage := "neofetch" } },
  { name := "sl"
    category := .amusement
    others := []
    handler := sl
    manual :=
    { summary := "Steam locomotive"
      usage := "sl" } },
  { name := "fortune"
    category := .amusement
    others := []
    handler := fortune
    manual :=
    { summary := "Print a random quote"
      usage := "fortune" } },
  { name := "exit"
    category := .amusement
    others := ["quit", "logout"]
    handler := exit
    manual :=
    { summary := "Leave the terminal"
      usage := "exit" } }]

end Shellbox.Command

namespace Shellbox

def Catalog.standard : Catalog :=
  Command.shipped.foldl (fun cat c => cat.register c.name c.category c.others c.manual c.handler) []

end Shellbox
