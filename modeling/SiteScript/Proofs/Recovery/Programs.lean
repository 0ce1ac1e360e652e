import SiteScript.Proofs.Php.Frame
import SiteScript.Proofs.Php.Lookups
import SiteScript.Recovery.Basic

/-!
# Reading programs back

What a compiled program does is recognised, and the texts in it are read back as they were
packed.
-/

namespace SiteScript.Recovery

open Text (occursIn)

/-! ## Effects -/

/-- What a program does that can be turned back into a step. -/
def effect? : Php.Program → Option Effect
  | .insertPost .. => some .insertPost
  | .addMenuItem .. => some .addMenuItem
  | .attachImage _ => some .attachImage
  | _ => none

/-- What is recognised in the fixed text of a program. -/
def effectOfChunks? (chunks : List (List Char)) : Option Effect :=
  if chunks.any (occursIn "wp_insert_post".toList) then some .insertPost
  else if chunks.any (occursIn "wp_update_nav_menu_item".toList) then some .addMenuItem
  else if chunks.any (occursIn "set_post_thumbnail".toList) then some .attachImage
  else none

theorem effectOfChunks?_outlines :
    ∀ outline ∈ Php.outlines, effectOfChunks? outline.woven.chunks = effect? outline := by
  simp only [Php.outlines, Php.outlinesOf, Php.Program.woven, Php.Program.parts, Php.lookup,
    PostType.name, Php.weave, Php.Part.weave, Php.Woven.chunks, Php.Woven.addFixed,
    Php.Woven.addPayload, Php.Woven.empty, List.cons_append, List.nil_append, List.foldr_cons,
    List.foldr_nil, List.map_cons, List.map_nil, List.forall_mem_cons, List.not_mem_nil,
    false_implies, implies_true, String.toList_append]
  repeat rw [String.toList_ofList]
  decide +kernel

/-- What a program does is recognised, unless it adds a role, whose identifier may be any
word. -/
theorem ofCode?_source (program : Php.Program) (noRole : program.addsRole = false) :
    Effect.ofCode? program.source = effect? program := by
  have underscore : Php.isPackedChar '_' = false := by decide
  have contains : ∀ part : String, '"' ∉ part.toList → '_' ∈ part.toList →
      Text.contains program.source part =
        program.outline.woven.chunks.any (occursIn part.toList) :=
    fun part noQuote inPart => Php.contains_source noRole noQuote inPart underscore
  have sameEffect : effect? program.outline = effect? program := by
    cases program <;> rfl
  rw [← sameEffect, ← effectOfChunks?_outlines program.outline
    (Php.outline_mem_outlines program), Effect.ofCode?, effectOfChunks?,
    contains "wp_insert_post" (by decide) (by decide),
    contains "wp_update_nav_menu_item" (by decide) (by decide),
    contains "set_post_thumbnail" (by decide) (by decide)]

/-! ## Texts -/

theorem valueText_symbolsOf {text : String} (isClean : Text.clean text = text) :
    valueText (.packed (Php.symbolsOf text)) = .ok text := by
  rw [valueText, Php.symbolsOf, Link.packable_of_clean isClean, String.ofList_toList,
    Link.decode_pack]

/-- The type named by a type's name. -/
theorem postTypeNamed_name (type : PostType) : postTypeNamed type.name = type := by
  cases type <;> decide

/-- A program that makes content is read as the content that it was made for. -/
theorem ofCode_insertPost (type : PostType) {status title body : String}
    (statusClean : Text.clean status = status) (titleClean : Text.clean title = title)
    (bodyClean : Text.clean body = body) :
    Draft.ofCode (Php.Program.insertPost type status title body).source =
      .ok { type, content := { title, body, status, image := none } } := by
  have literal : valueText (.literal type.name.toList) = .ok type.name := by
    cases type <;> rfl
  rw [Draft.ofCode, Php.fields_insertPost]
  simp only [List.foldlM_cons, List.foldlM_nil, Draft.addField, Php.packedField, literal,
    valueText_symbolsOf statusClean, valueText_symbolsOf titleClean,
    valueText_symbolsOf bodyClean, Except.map, Draft.set, postTypeNamed_name]
  rfl

/-- The menu to which a program adds an item. -/
theorem lookupText_menu {menu : String} (isClean : Text.clean menu = menu)
    (target : CreatedContent) :
    lookupText .noMenuLookup
      (Text.leftmost? Php.menuLookup? (Php.Program.addMenuItem menu target).source.toList) =
        .ok menu := by
  rw [Php.leftmost?_menuLookup?, lookupText, valueText_symbolsOf isClean]

/-- The title of the page that a program adds to a menu. -/
theorem lookupText_title {target : CreatedContent}
    (isClean : Text.clean target.title = target.title) (menu : String) :
    lookupText .noPageLookup
      (Text.leftmost? Php.titleLookup? (Php.Program.addMenuItem menu target).source.toList) =
        .ok target.title := by
  rw [Php.leftmost?_titleLookup?, lookupText, valueText_symbolsOf isClean]

end SiteScript.Recovery
