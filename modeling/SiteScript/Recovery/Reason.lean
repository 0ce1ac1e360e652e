import SiteScript.Link
import SiteScript.Text.Displayed

/-!
# Why an entry is dropped

The reasons for which an entry of a script cannot be turned back into a step.
-/

namespace SiteScript.Recovery

/-- Why an entry of a script is dropped. -/
inductive Reason where
  /-- The entry is no known instruction. -/
  | foreign
  /-- Options are set, but none. -/
  | noOptions
  /-- Constants are defined, but none. -/
  | noConstants
  /-- Content is imported from something that is no address. -/
  | noAddress
  /-- A program that makes no content. -/
  | noContent
  /-- Content is made that has no title. -/
  | noTitle
  /-- A menu is made that has no name. -/
  | noMenuName
  /-- A command that is not understood. -/
  | unknownCommand (line : String)
  /-- An image is stored, but the content made last has one or there is none. -/
  | noContentForImage
  /-- A menu item is added, but it does not say to which menu. -/
  | noMenuLookup
  /-- A menu item is added, but it does not say to which page it leads. -/
  | noPageLookup
  /-- A menu item leads to a page that has not been made. -/
  | unknownPage (title : String)
  /-- A menu is changed that has not been made. -/
  | unknownMenu (name : String)
  /-- A text cannot be unpacked. -/
  | unreadable (error : Link.DecodeError)
  deriving Repr, DecidableEq

/-- The first characters of a text, followed by three points if there are more. -/
def shorten (text : String) (length : Nat) : String :=
  if length < text.toList.length then .ofList (text.toList.take length ++ ['.', '.', '.'])
  else text

/-- The wording of a reason. -/
def Reason.message : Reason → String
  | .foreign => "unrecognized or malformed instruction"
  | .noOptions => "no options"
  | .noConstants => "no constants"
  | .noAddress => "import source is not a url"
  | .noContent => "php code does not create content"
  | .noTitle => "content without a title"
  | .noMenuName => "menu without a name"
  | .unknownCommand line => "unrecognized command: " ++ shorten line 60
  | .noContentForImage => "media import without a preceding post to attach to"
  | .noMenuLookup => "menu lookup not found"
  | .noPageLookup => "page lookup not found"
  | .unknownPage title =>
    "no page titled " ++ Text.Displayed.display title ++ " precedes the menu item"
  | .unknownMenu name => "menu " ++ Text.Displayed.display name ++ " was never created"
  | .unreadable error => error.message

/-- An entry that is dropped. -/
structure Drop where
  /-- The place of the entry in the script. -/
  index : Nat
  /-- The name of the entry's kind. -/
  kind : String
  reason : Reason
  deriving Repr, DecidableEq

/-- What is said about a dropped entry. -/
def Drop.message (drop : Drop) : String :=
  "instruction #" ++ toString drop.index ++ " (" ++ drop.kind ++ ") dropped: " ++
    drop.reason.message

end SiteScript.Recovery
