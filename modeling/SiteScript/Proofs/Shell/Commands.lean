import SiteScript.Command
import SiteScript.Proofs.Php.Frame
import SiteScript.Proofs.Shell.Splitting
import SiteScript.Recovery.Request

/-!
# The lines of commands

The line of a command splits into its arguments, whatever its texts are, and is clean if
its texts are.
-/

namespace SiteScript

open Text (clean cleanChars spacing)

/-! ## Clean lines -/

namespace Shell

/-- Quoting keeps a text readable. -/
theorem spacing_flatMap_quoteChar {text : List Char} {behindWord state : Bool}
    (read : spacing behindWord text = some state) :
    spacing behindWord (text.flatMap quoteChar) = some state := by
  have backslash : Text.isWordChar '\\' := by decide
  have quote : Text.isWordChar '\'' := by decide
  induction text generalizing behindWord with
  | nil => exact read
  | cons c rest inductionHypothesis =>
      rw [List.flatMap_cons, quoteChar]
      rw [spacing] at read
      split
      · rename_i equal
        rw [equal, if_pos backslash] at read
        simp [spacing, backslash, inductionHypothesis read]
      split
      · rename_i equal
        rw [equal, if_pos quote] at read
        simp [spacing, backslash, quote, inductionHypothesis read]
      split
      · rename_i equal
        rw [equal] at read
        simp [Text.isWordChar, Text.isControl] at read
      · rw [List.singleton_append, spacing]
        split at read
        · rename_i isWord
          rw [if_pos isWord, inductionHypothesis read]
        · rename_i notWord
          split at read
          · rename_i space
            rw [if_neg notWord, if_pos space, inductionHypothesis read]
          · contradiction

/-- A part of a word whose characters are clean. -/
def Segment.IsClean : Segment → Prop
  | .bare text => Text.IsRun Text.isWordChar text.toList
  | .quoted text => spacing true text.toList = some true

instance (segment : Segment) : Decidable segment.IsClean :=
  match segment with
  | .bare _ => inferInstanceAs (Decidable (Text.IsRun _ _))
  | .quoted _ => inferInstanceAs (Decidable (_ = _))

theorem spacing_segment {segment : Segment} (isClean : segment.IsClean) (behindWord : Bool) :
    spacing behindWord segment.chars = some true := by
  cases segment with
  | bare text => exact Text.spacing_of_isRun behindWord isClean
  | quoted text =>
      have quote : Text.isWordChar '\'' := by decide
      rw [Segment.chars, quoteChars, List.cons_append, spacing, if_pos quote,
        Text.spacing_append, spacing_flatMap_quoteChar isClean, Option.bind_some]
      simp [spacing, quote]

theorem spacing_word {word : Word} (notEmpty : word ≠ [])
    (areClean : ∀ segment ∈ word, segment.IsClean) (behindWord : Bool) :
    spacing behindWord (word.flatMap Segment.chars) = some true := by
  induction word generalizing behindWord with
  | nil => exact absurd rfl notEmpty
  | cons segment rest inductionHypothesis =>
      obtain ⟨isClean, restClean⟩ := List.forall_mem_cons.mp areClean
      rw [List.flatMap_cons, Text.spacing_append, spacing_segment isClean, Option.bind_some]
      cases rest with
      | nil => rfl
      | cons next rest => exact inductionHypothesis (by simp) restClean true

/-- The line of clean words is clean. -/
theorem clean_line {words : List Word} (notEmpty : words ≠ [])
    (wellFormed : ∀ word ∈ words, Word.WellFormed word)
    (areClean : ∀ word ∈ words, ∀ segment ∈ word, segment.IsClean) :
    clean (line words) = line words := by
  rw [Text.clean_eq_self_iff, Text.cleanChars_eq_self_iff]
  right
  rw [line, String.toList_ofList]
  refine Text.spacing_intercalate (by simpa using notEmpty) ?_ false
  intro chars member behindWord
  obtain ⟨word, isWord, rfl⟩ := List.mem_map.mp member
  exact spacing_word (wellFormed word isWord).1 (areClean word isWord) behindWord

end Shell

namespace Command

/-! ## Parts of words -/

/-- What stands outside of quotes in the lines of commands. -/
def bareTexts : List String :=
  ["wp", "post", "create", "media", "import", "menu", "item", "add-custom", "location", "assign",
    "eval", "--post_type=page", "--post_type=post", "--post_status=", "--post_title=",
    "--post_content="]

/-- The texts that a command is made with. -/
def texts : Command → List String
  | .createPost _ status title body => [status, title, body]
  | .importMedia url => [url]
  | .createMenu name => [name]
  | .addMenuItem menu title url => [menu, title, url]
  | .assignMenu menu location => [menu, location]
  | .run _ => []

/-- What stands between quotes in the line of a command. -/
def quotedTexts (command : Command) : List String :=
  match command with
  | .run program => [program.source]
  | _ => command.texts

/-- What holds of what stands outside of quotes and of what stands between them holds of every
part of every word. -/
theorem forall_mem_words {holds : Shell.Segment → Prop} {command : Command}
    (ofBare : ∀ text ∈ bareTexts, holds (.bare text))
    (ofQuoted : ∀ text ∈ command.quotedTexts, holds (.quoted text)) :
    ∀ word ∈ command.words, ∀ segment ∈ word, holds segment := by
  simp only [bareTexts, List.forall_mem_cons] at ofBare
  cases command with
  | createPost type status title body =>
      cases type <;>
        simp_all [quotedTexts, texts, words, plain, flag, PostType.name]
  | _ => simp_all [quotedTexts, texts, words, plain, quoted]

theorem words_ne_nil (command : Command) : command.words ≠ [] := by
  cases command <;> simp [words]

/-- The words of every command can be written. -/
theorem wellFormed_words (command : Command) :
    ∀ word ∈ command.words, Shell.Word.WellFormed word := by
  have notEmpty : ∀ word ∈ command.words, word ≠ [] := by
    cases command <;> simp [words, plain, quoted, flag]
  have segmentsWellFormed : ∀ word ∈ command.words, ∀ segment ∈ word, segment.WellFormed :=
    forall_mem_words (by decide) fun _ _ => trivial
  exact fun word isWord => ⟨notEmpty word isWord, segmentsWellFormed word isWord⟩

/-! ## Splitting lines -/

/-- The line of a command splits into its arguments. -/
@[simp]
theorem split_line (command : Command) : Shell.split command.line = command.arguments :=
  Shell.split_line command.wellFormed_words

/-! ## Arguments -/

theorem argument_plain (text : String) : Shell.Word.argument (plain text) = text := by
  simp [Shell.Word.argument, plain, Shell.Segment.meaning]

theorem argument_quoted (text : String) : Shell.Word.argument (quoted text) = text := by
  simp [Shell.Word.argument, quoted, Shell.Segment.meaning]

theorem argument_flag (name value : String) :
    Shell.Word.argument (flag name value) = name ++ value := by
  rw [← String.toList_inj]
  simp [Shell.Word.argument, flag, Shell.Segment.meaning]

/-- The arguments that make a page or post. -/
def creationArguments (type : PostType) (status title body : String) : List String :=
  ["wp", "post", "create", "--post_type=" ++ type.name, "--post_status=" ++ status,
    "--post_title=" ++ title, "--post_content=" ++ body]

/-- The arguments of a command, spelled out. -/
theorem arguments_eq (command : Command) :
    command.arguments =
      match command with
      | .createPost type status title body => creationArguments type status title body
      | .importMedia url => ["wp", "media", "import", url]
      | .createMenu name => ["wp", "menu", "create", name]
      | .addMenuItem menu title url => ["wp", "menu", "item", "add-custom", menu, title, url]
      | .assignMenu menu location => ["wp", "menu", "location", "assign", menu, location]
      | .run program => ["wp", "eval", program.source] := by
  cases command <;>
    simp only [arguments, words, List.map_cons, List.map_nil, argument_plain, argument_quoted,
      argument_flag, creationArguments]

/-! ## Requests -/

/-- What the line of a command asks for. -/
def request : Command → Recovery.Request
  | .createPost type status title body =>
    .createPost ["--post_type=" ++ type.name, "--post_status=" ++ status,
      "--post_title=" ++ title, "--post_content=" ++ body]
  | .importMedia url => .importMedia url
  | .createMenu name => .createMenu name
  | .addMenuItem menu title url => .addMenuItem menu title url
  | .assignMenu menu location => .assignMenu menu location
  | .run program => .run program.source

/-- The arguments of a command say what it asks for. -/
theorem ofWords?_arguments (command : Command) :
    Recovery.Request.ofWords? command.arguments = some command.request := by
  rw [arguments_eq]
  cases command <;> rfl

/-! ## Programs between quotes -/

/-- Between quotes a program stands as it is. -/
theorem quoteChars_source (program : Php.Program) :
    Shell.quoteChars program.source.toList = '\'' :: program.source.toList ++ ['\''] := by
  have unquoted : ∀ c ∈ program.source.toList, Shell.quoteChar c = [c] := by
    intro c member
    have plain := Php.isPlainChar_of_mem_source member
    simp only [Php.isPlainChar, Bool.and_eq_true, decide_eq_true_eq, bne_iff_ne] at plain
    have notLineEnd : c ≠ '\n' := by
      rintro rfl
      exact absurd plain.1.1.1 (by decide)
    rw [Shell.quoteChar, if_neg plain.2, if_neg plain.1.2, if_neg notLineEnd]
  rw [Shell.quoteChars, List.flatMap_def, List.map_congr_left unquoted, ← List.flatMap_def]
  simp

/-! ## Clean lines -/

/-- The line of a command is clean if its texts are. -/
theorem clean_line {command : Command} (textsClean : ∀ text ∈ command.texts, clean text = text) :
    clean command.line = command.line := by
  refine Shell.clean_line command.words_ne_nil command.wellFormed_words ?_
  refine forall_mem_words (by decide) ?_
  intro text isText
  have ofText : text ∈ command.texts → spacing true text.toList = some true := fun member =>
    Text.spacing_of_clean (Text.clean_eq_self_iff.mp (textsClean text member))
  cases command with
  | run program =>
      rw [List.mem_singleton.mp isText]
      exact Php.spacing_source program
  | _ => exact ofText isText

end Command

end SiteScript
