import SiteScript.Php.Reading
import SiteScript.Plan.Basic
import SiteScript.Recovery.Reason
import SiteScript.Recovery.Request
import SiteScript.Script.Document

/-!
# Recovering plans

A script is turned back into steps by reading its entries in order.  An entry adds
steps, or completes one that is already there: an image goes to the content made
last, and menu items and locations go to the menu of that name made last.  An entry
that can do neither is dropped with a reason.

All entries edit one list of steps in place, and an edit that fails takes nothing back.
So every edit makes its checks before it changes anything.
-/

namespace SiteScript.Recovery

open Text (clean)

variable {α : Type}

/-- Replaces the last element for which there is a replacement. -/
def replaceLast? (replacement? : α → Option α) : List α → Option (List α)
  | [] => none
  | a :: rest =>
    match replaceLast? replacement? rest with
    | some replaced => some (a :: replaced)
    | none => (replacement? a).map (· :: rest)

/-- A supply of identifiers: the one of the step at each place. -/
abbrev Ids := Nat → String

/-- The steps with one more at the end. -/
def push (ids : Ids) (steps : List Step) (kind : StepKind) : List Step :=
  steps ++ [{ id := ids steps.length, kind }]

/-- An edit of the steps.  What it has changed when it fails stays changed. -/
abbrev Edit := ExceptT Reason (StateM (List Step))

namespace Edit

/-- What an edit comes to, and the steps behind it. -/
def carryOut (edit : Edit α) (steps : List Step) : Except Reason α × List Step :=
  (ExceptT.run edit).run steps

/-- Adds a step at the end. -/
def push (ids : Ids) (kind : StepKind) : Edit Unit :=
  modify fun steps => Recovery.push ids steps kind

/-- Replaces the last step for which there is a replacement; the reason tells that there is
none. -/
def replaceLast (replacement? : Step → Option Step) (missing : Reason) : Edit Unit := do
  match replaceLast? replacement? (← get) with
  | some steps => set steps
  | none => throw missing

end Edit

/-! ## Content -/

/-- The details of a page or post, as far as they have been read. -/
structure Draft where
  type : PostType
  content : Content
  deriving Repr, DecidableEq

/-- A post with no details. -/
def Draft.start : Draft :=
  { type := .post, content := .empty }

/-- The type with the given name; what is not a page is a post. -/
def postTypeNamed (name : String) : PostType :=
  if name == PostType.page.name then .page else .post

/-- The draft with the value of one field. -/
def Draft.set (draft : Draft) (name : Php.FieldName) (value : String) : Draft :=
  match name with
  | .type => { draft with type := postTypeNamed value }
  | .status => { draft with content := { draft.content with status := value } }
  | .title => { draft with content := { draft.content with title := value } }
  | .body => { draft with content := { draft.content with body := value } }

/-- The field with the given name. -/
def fieldNamed? (name : String) : Option Php.FieldName :=
  Php.FieldName.all.find? fun field => field.text == name

/-- The draft with what a flag says; a word that is no flag of a field says nothing. -/
def Draft.addFlag (draft : Draft) (word : String) : Draft :=
  match flag? word with
  | none => draft
  | some (name, value) =>
    match fieldNamed? name with
    | none => draft
    | some field => draft.set field value

/-- The draft that flags describe; of two flags for a field the later one counts. -/
def Draft.ofFlags (flags : List String) : Draft :=
  flags.foldl Draft.addFlag .start

/-- The text that a written value stands for. -/
def valueText : Php.Value → Except Reason String
  | .packed symbols =>
    match Link.decode (.ofList symbols) with
    | .ok text => .ok text
    | .error error => .error (.unreadable error)
  | .literal body => .ok (.ofList (Php.unescape body))

/-- The draft with what a field of a program says. -/
def Draft.addField (draft : Draft) (field : Php.Field) : Except Reason Draft :=
  (valueText field.value).map (draft.set field.name)

/-- The draft that a program describes; of two values for a field the later one counts. -/
def Draft.ofCode (code : String) : Except Reason Draft :=
  (Php.fields code).foldlM Draft.addField .start

/-- The step that makes the content of a draft. -/
def Draft.kind (draft : Draft) : StepKind :=
  match draft.type with
  | .page => .addPage draft.content
  | .post => .addPost draft.content

/-- Adds a step that makes the content of a draft, which must have a title. -/
def Edit.addContent (ids : Ids) (draft : Draft) : Edit Unit := do
  if (Text.trim draft.content.title).isEmpty then throw .noTitle
  push ids draft.kind

/-- Adds a step that makes the content that a program makes. -/
def Edit.addCoded (ids : Ids) (code : String) : Edit Unit := do
  addContent ids (← Draft.ofCode code)

/-! ## Images -/

/-- The details of a step that makes a page or post by itself. -/
def content? (step : Step) : Option Content :=
  match step.kind with
  | .addPage content => some content
  | .addPost content => some content
  | _ => none

/-- The step with an image, if it makes a page or post by itself. -/
def withImage? (image : String) (step : Step) : Option Step :=
  match step.kind with
  | .addPage content => some { step with kind := .addPage { content with image := some image } }
  | .addPost content => some { step with kind := .addPost { content with image := some image } }
  | _ => none

/-- Gives an image to the content made last, which may not have one yet. -/
def Edit.attachImage (image : String) : Edit Unit := do
  match (← get).reverse.findSome? content? with
  | none => throw .noContentForImage
  | some content =>
    if content.image.isSome then throw .noContentForImage
    replaceLast (withImage? image) .noContentForImage

/-! ## Menus -/

/-- The step with its menu changed, if it makes the menu with the given name. -/
def withMenu? (name : String) (change : Menu → Menu) (step : Step) : Option Step :=
  match step.kind with
  | .createMenu menu =>
    if menu.name = name then some { step with kind := .createMenu (change menu) } else none
  | _ => none

/-- Changes the menu of the given name that was made last. -/
def Edit.changeMenu (name : String) (change : Menu → Menu) : Edit Unit :=
  replaceLast (withMenu? (clean name) change) (.unknownMenu (clean name))

/-- The menu with one more item. -/
def addItem (item : MenuItem) (menu : Menu) : Menu :=
  { menu with items := menu.items ++ [item] }

/-- The menu in the given place. -/
def setLocation (location : String) (menu : Menu) : Menu :=
  { menu with location := some location }

/-- The text that a lookup gives, or the stated reason if there is no such lookup. -/
def lookupText (missing : Reason) (symbols : Option (List Char)) : Except Reason String :=
  match symbols with
  | none => .error missing
  | some symbols => valueText (.packed symbols)

/-- Whether a step makes content with the given clean title. -/
def createsTitled (title : String) (step : Step) : Bool :=
  step.kind.created?.any fun created => created.title == title

/-- Adds the item that a program adds to a menu.  It leads to the first step that makes
content of that title. -/
def Edit.addPageItem (code : String) : Edit Unit := do
  let menu ← lookupText .noMenuLookup (Text.leftmost? Php.menuLookup? code.toList)
  let title ← lookupText .noPageLookup (Text.leftmost? Php.titleLookup? code.toList)
  match (← get).find? (createsTitled (clean title)) with
  | none => throw (.unknownPage title)
  | some step =>
    changeMenu menu (addItem { kind := .page, pageId := some step.id, title := "", url := "" })

/-! ## Entries -/

namespace Edit

/-- Does what a command line asks for. -/
def request (ids : Ids) (line : String) : Request → Edit Unit
  | .createPost flags => addContent ids (.ofFlags flags)
  | .importMedia url => attachImage url
  | .createMenu name => do
    if (clean name).isEmpty then throw .noMenuName
    push ids (.createMenu (.named (clean name)))
  | .addMenuItem menu title url =>
    changeMenu menu (addItem { kind := .custom, pageId := none, title, url })
  | .assignMenu menu location => changeMenu menu (setLocation location)
  | .run code =>
    match Effect.ofCode? code with
    | some .insertPost => addCoded ids code
    | some .addMenuItem => addPageItem code
    | some .attachImage => pure ()
    | none => throw (.unknownCommand line)

/-- Reads a command line. -/
def command (ids : Ids) (line : String) : Edit Unit :=
  match Request.ofWords? (Shell.split line) with
  | some asked => request ids line asked
  | none => throw (.unknownCommand line)

/-- Reads an instruction. -/
def instruction (ids : Ids) : Instruction → Edit Unit
  | .login username password =>
    push ids (.login { username := some username, password := some password })
  | .setSiteOptions options => do
    if options.isEmpty then throw .noOptions
    options.forM fun option => push ids (.setSiteOption { name := option.1, value := option.2 })
  | .installPlugin source activate =>
    push ids (.installPlugin { source := some source, activate := some activate })
  | .installTheme source activate =>
    push ids (.installTheme { source := some source, activate := some activate })
  | .defineConstants constants => do
    if constants.isEmpty then throw .noConstants
    push ids (.defineConstants constants)
  | .importContent file =>
    match file with
    | .address url => do
      if url.isEmpty then throw .noAddress
      push ids (.importContent url)
    | _ => throw .noAddress
  | .command line => command ids line
  | .runPhp code => do
    unless Text.contains code "wp_insert_post" do throw .noContent
    addCoded ids code

/-- Reads an entry. -/
def entry (ids : Ids) : Entry → Edit Unit
  | .known known => instruction ids known
  | .foreign _ => throw .foreign

end Edit

end Recovery

open Recovery

/-- What is recovered from a script: the steps, and the entries that were dropped. -/
structure Recovery where
  steps : List Step
  dropped : List Drop
  deriving Repr, DecidableEq

namespace Recovery

/-- Nothing has been read. -/
def start : Recovery :=
  { steps := [], dropped := [] }

/-- Reads the entry at a place of the script. -/
def read (ids : Ids) (recovery : Recovery) (place : Entry × Nat) : Recovery :=
  match (Edit.entry ids place.1).carryOut recovery.steps with
  | (.ok (), steps) => { recovery with steps }
  | (.error reason, steps) =>
    { steps
      dropped := recovery.dropped ++ [{ index := place.2, kind := place.1.kindName, reason }] }

/-- What is recovered from the entries of a script. -/
def ofEntries (ids : Ids) (entries : List Entry) : Recovery :=
  entries.zipIdx.foldl (read ids) start

end Recovery

/-- What is recovered from a script. -/
def Document.recover (ids : Recovery.Ids) (document : Document) : Recovery :=
  Recovery.ofEntries ids document.entries

/-- The plan that continues a recovered script: its steps, and the landing page of the
script. -/
def Document.recoveredPlan (ids : Recovery.Ids) (document : Document) : Plan :=
  { title := ""
    landing := .custom
    landingUrl := some document.landingPage
    steps := (document.recover ids).steps }

end SiteScript
