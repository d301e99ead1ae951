import Shellbox.Format.Fill
import Shellbox.Shell.Session

/-!
# The prompt

The prompt shows the user, the host and the working directory, with a tilde for the home directory.
In colours it has one form; without them the settings give a format with fields for the three.
-/

namespace Shellbox

/-- The path of the working directory, with a tilde for the home directory. -/
def shownDirectory (home cwd : String) : String :=
  if cwd = home then "~"
  else if (home ++ "/").toList.isPrefixOf cwd.toList then
    "~" ++ String.ofList (cwd.toList.drop home.length)
  else cwd

/-- The prompt in colours: user and host in green, the directory in blue. -/
def coloredPrompt (user hostname directory : String) : String :=
  "\x1b[32m" ++ user ++ "@" ++ hostname ++ "\x1b[0m:\x1b[34m" ++ directory ++ "\x1b[0m$ "

def Session.prompt (s : Session) : Except Format.Fault String :=
  let st := s.settings
  let directory := shownDirectory st.home s.fs.cwd
  if st.colors then .ok (coloredPrompt st.user st.hostname directory)
  else
    Format.fill [("user", st.user), ("hostname", st.hostname), ("cwd", directory)] st.promptFormat

end Shellbox
