import SiteScript.Shell
import SiteScript.Text.Search

/-!
# What a command asks for

The command lines that can be turned back into steps, told apart by their first
words.
-/

namespace SiteScript.Recovery

/-- What a command line asks for. -/
inductive Request where
  /-- A page or post is made; the flags give its details. -/
  | createPost (flags : List String)
  | importMedia (url : String)
  | createMenu (name : String)
  | addMenuItem (menu title url : String)
  | assignMenu (menu location : String)
  /-- A program is run. -/
  | run (code : String)
  deriving Repr, DecidableEq

/-- What a command line with the given words asks for.  Only a program must be the last
word. -/
def Request.ofWords? : List String → Option Request
  | "wp" :: "post" :: "create" :: flags => some (.createPost flags)
  | "wp" :: "media" :: "import" :: url :: _ => some (.importMedia url)
  | "wp" :: "menu" :: "create" :: name :: _ => some (.createMenu name)
  | "wp" :: "menu" :: "item" :: "add-custom" :: menu :: title :: url :: _ =>
    some (.addMenuItem menu title url)
  | "wp" :: "menu" :: "location" :: "assign" :: menu :: location :: _ =>
    some (.assignMenu menu location)
  | ["wp", "eval", code] => some (.run code)
  | _ => none

/-- The name and the value of a flag: what stands between two dashes and the first equals
sign, and what stands behind that. -/
def flag? (word : String) : Option (String × String) :=
  match word.toList with
  | '-' :: '-' :: text =>
    match text.dropWhile (· != '=') with
    | _ :: value => some (.ofList (text.takeWhile (· != '=')), .ofList value)
    | [] => none
  | _ => none

/-- What a program does that can be turned back into a step. -/
inductive Effect where
  | insertPost
  | addMenuItem
  | attachImage
  deriving Repr, DecidableEq

/-- What a program does, told by the functions that it calls. -/
def Effect.ofCode? (code : String) : Option Effect :=
  if Text.contains code "wp_insert_post" then some .insertPost
  else if Text.contains code "wp_update_nav_menu_item" then some .addMenuItem
  else if Text.contains code "set_post_thumbnail" then some .attachImage
  else none

end SiteScript.Recovery
