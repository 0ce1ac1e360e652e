import SiteScript.Php.Program
import SiteScript.Script.Instruction
import SiteScript.Shell

/-!
# Commands

The command lines that a compiled script contains.  A command is a list of words,
and the texts of the author stand in it between quotes, so splitting its line gives
back exactly its arguments.
-/

namespace SiteScript

/-- A command of the site's command-line tool. -/
inductive Command where
  | createPost (type : PostType) (status title body : String)
  | importMedia (url : String)
  | createMenu (name : String)
  | addMenuItem (menu title url : String)
  | assignMenu (menu location : String)
  | run (program : Php.Program)
  deriving Repr, DecidableEq

namespace Command

/-- A fixed word. -/
def plain (text : String) : Shell.Word :=
  [.bare text]

/-- A word that is a text. -/
def quoted (text : String) : Shell.Word :=
  [.quoted text]

/-- A word that gives a flag a text as its value. -/
def flag (name value : String) : Shell.Word :=
  [.bare name, .quoted value]

/-- The words of a command. -/
def words : Command → List Shell.Word
  | .createPost type status title body =>
    [plain "wp", plain "post", plain "create", plain ("--post_type=" ++ type.name),
      flag "--post_status=" status, flag "--post_title=" title, flag "--post_content=" body]
  | .importMedia url => [plain "wp", plain "media", plain "import", quoted url]
  | .createMenu name => [plain "wp", plain "menu", plain "create", quoted name]
  | .addMenuItem menu title url =>
    [plain "wp", plain "menu", plain "item", plain "add-custom", quoted menu, quoted title,
      quoted url]
  | .assignMenu menu location =>
    [plain "wp", plain "menu", plain "location", plain "assign", quoted menu, quoted location]
  | .run program => [plain "wp", plain "eval", quoted program.source]

/-- The arguments of a command. -/
def arguments (command : Command) : List String :=
  command.words.map Shell.Word.argument

/-- The line of a command. -/
def line (command : Command) : String :=
  Shell.line command.words

/-- The instruction that executes a command. -/
def instruction (command : Command) : Instruction :=
  .command command.line

end Command

end SiteScript
