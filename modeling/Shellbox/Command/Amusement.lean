import Shellbox.Command.Catalog

/-!
# Amusements

The commands that only joke. Some of them choose what to say at random.
-/

namespace Shellbox.Command

/-- A handler that says something chosen at random, put into a frame. -/
def saying (choices : List String) (frame : String → String) : Handler := .acting fun _ s _ =>
  let (text, s) := s.choose choices
  (s, .ok (frame text))

def refusals : List String := [
  "Nice try! This terminal doesn't have root access.",
  "Permission denied: Guest users cannot sudo.",
  "[sudo] password for guest: \nSorry, try again.\n[sudo] password for guest: \nSorry, " ++
    "try again.\n[sudo] password for guest: \nsudo: 3 incorrect password attempts",
  "sudo: you must be sudoer to use sudo. This incident will be reported.",
  "We trust you have received the usual lecture from the local System\nAdministrator. It " ++
    "usually boils down to these three things:\n\n    #1) Respect the privacy of others.\n " ++
    "   #2) Think before you type.\n    #3) With great power comes great " ++
    "responsibility.\n\n[sudo] password for guest: \nPermission denied."]

def elevate : Handler := saying refusals id

def fortunes : List String := [
  "\"The only truly secure system is one that is powered off, cast in a block of " ++
    "concrete and sealed in a lead-lined room with armed guards.\" - Gene Spafford",
  "\"Hackers are breaking the systems for profit. Before, it was about intellectual " ++
    "curiosity and pursuit of knowledge and thrill, and now hacking is big business.\" - " ++
    "Kevin Mitnick",
  "\"The best way to predict the future is to invent it.\" - Alan Kay",
  "\"In God we trust. All others must bring data.\" - W. Edwards Deming",
  "\"Security is not a product, but a process.\" - Bruce Schneier",
  "\"There are two types of encryption: one that will prevent your sister from reading " ++
    "your diary and one that will prevent your government.\" - Bruce Schneier",
  "\"A good programmer is someone who always looks both ways before crossing a one-way " ++
    "street.\" - Doug Linder",
  "\"It's not a bug, it's an undocumented feature.\" - Anonymous",
  "\"The quieter you become, the more you are able to hear.\" - Kali Linux motto",
  "\"Always code as if the person who ends up maintaining your code is a violent " ++
    "psychopath who knows where you live.\" - John Woods",
  "\"There is no patch for human stupidity.\" - Anonymous",
  "\"If you think technology can solve your security problems, then you don't understand " ++
    "the problems and you don't understand the technology.\" - Bruce Schneier",
  "\"The Internet is not a truck. It's a series of tubes.\" - Ted Stevens (just kidding!)",
  "\"To err is human, but to really foul things up you need a computer.\" - Paul R. " ++
    "Ehrlich",
  "\"Some people have a way with words, and other people...oh, not have way.\" - Steve " ++
    "Martin (Wait, wrong quote)"]

def fortune : Handler := saying fortunes fun text => "\n" ++ text ++ "\n"

def farewells : List String := [
  "You can check out any time you like, but you can never leave...\n\n(This is a web " ++
    "terminal - just close the tab if you want to leave!)",
  "Exit? There is no exit in the Matrix.\n\nTry 'clear' to reset the terminal instead.",
  "Exiting would be too easy. Try exploring more commands!\n\nHint: Type 'help' for " ++
    "available commands.",
  "404: Exit not found.\n\nThis terminal doesn't have an exit. But feel free to explore!",
  "You've been trapped in the cyber realm!\n\nJust kidding - you can close this tab " ++
    "anytime."]

/-- Does not let anyone leave. -/
def exit : Handler := saying farewells id

def cowText (message : String) : String :=
  let border := "".pushn '-' (message.length + 2)
  "
 " ++ border ++ "
< " ++ message ++ " >
 " ++ border ++ "
        \\   ^__^
         \\  (oo)\\_______
            (__)\\       )\\/\\
                ||----w |
                ||     ||
    "

def cowsay : Handler := .looking fun _ _ args _ =>
  .ok (cowText (if args.isEmpty then "Moo!" else " ".intercalate args))

def matrixText : String := "
[MATRIX MODE ACTIVATED]

The Matrix has you...
Follow the white rabbit.

Press any key to continue...
"

/-- Asks for falling letters. -/
def matrix : Handler := .looking fun _ _ _ _ => .marked matrixText fallingLetters

def hackText (target : String) : String := "
[*] Initializing hack sequence...
[*] Target: " ++ target ++ "
[*] Loading exploit modules...

[+] Bypassing firewall...................[OK]
[+] Cracking encryption..................[OK]
[+] Injecting payload....................[OK]
[+] Establishing backdoor................[OK]
[+] Covering tracks......................[OK]

[!] ACCESS GRANTED

    ██╗  ██╗ █████╗  ██████╗██╗  ██╗███████╗██████╗
    ██║  ██║██╔══██╗██╔════╝██║ ██╔╝██╔════╝██╔══██╗
    ███████║███████║██║     █████╔╝ █████╗  ██║  ██║
    ██╔══██║██╔══██║██║     ██╔═██╗ ██╔══╝  ██║  ██║
    ██║  ██║██║  ██║╚██████╗██║  ██╗███████╗██████╔╝
    ╚═╝  ╚═╝╚═╝  ╚═╝ ╚═════╝╚═╝  ╚═╝╚══════╝╚═════╝

[*] System compromised. You're in.
[*] Remember: With great power comes great responsibility.
    "

def hack : Handler := .looking fun _ _ args _ => .ok (hackText (args.headD "mainframe"))

def systemPicture (login : String) : String := "
       ___           " ++ login ++ "
      /   \\          -----------------
     |  o  |         OS: PortfolioOS v1.0
     |  _  |         Shell: cyber-term 2.0
      \\_|_/          Theme: Matrix Hacker
       | |           Terminal: Web-based
      /   \\          CPU: Your Browser
     |     |         Memory: Unlimited
     |_____|         Uptime: Since page load

    System Type: Static Portfolio
    Environment: Cybersecurity Showcase
    Purpose: Demonstrate skills & projects
    Security: Sandboxed

    Packages: cat, ls, cd, grep, base64, xxd
    Hidden: Try 'help' and look under FUN
    "

def neofetch : Handler := .looking fun _ s _ _ =>
  .ok (systemPicture (s.settings.user ++ "@" ++ s.settings.hostname))

def train : String := "

      ====        ________                ___________
  _D _|  |_______/        \\__I_I_____===__|_________|
   |(_)---  |   H\\________/ |   |        =|___ ___|
   /     |  |   H  |  |     |   |         ||_| |_||
  |      |  |   H  |__--------------------| [___] |
  |  ______|___H__/__|_____/[][]~\\_______|       |
  |/ |   |-----------I_____I [][] []  D   |=======|____
__/ =| o |=-~~\\  /~~\\  /~~\\  /~~\\ ____Y___________|__
 |/-=|___|=O=====O=====O=====O   |_____/~\\___/
  \\_/      \\__/  \\__/  \\__/  \\__/      \\_/

  Oops! Did you mean 'ls'?
    "

def sl : Handler := .looking fun _ _ _ _ => .ok train

end Shellbox.Command
