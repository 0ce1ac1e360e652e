import SiteScript.Proofs.Recovery.Insertions
import SiteScript.Proofs.Recovery.Reading
import SiteScript.Proofs.Shell.Splitting

/-!
# Commands that make content

A command that makes a page or post is read back by its flags, however its line is written.  A flag
counts wherever it stands, a word that is no flag of a field does not count, and the value of a
flag is all that stands behind its first equals sign.
-/

namespace SiteScript.Recovery

open Php (FieldName)

/-! ## Flags -/

/-- The text that a word gives to a field. -/
def flagText? (name : FieldName) (word : String) : Option String :=
  (Php.after? ("--" ++ name.text ++ "=").toList word.toList).map .ofList

/-- The texts that some words give to a field, in order. -/
def flagTexts (words : List String) (name : FieldName) : List String :=
  words.filterMap (flagText? name)

/-- The text of a field: that of the last word that gives it one, and an empty one if there is no
such word. -/
def flagText (words : List String) (name : FieldName) : String :=
  (flagTexts words name).getLastD ""

theorem flagText?_eq_some_iff {name : FieldName} {word text : String} :
    flagText? name word = some text ↔ word = "--" ++ name.text ++ "=" ++ text := by
  have chars (rest : String) : ("--" ++ name.text ++ "=" ++ rest).toList =
      ("--" ++ name.text ++ "=").toList ++ rest.toList := String.toList_append
  rw [flagText?, Option.map_eq_some_iff]
  constructor
  · rintro ⟨rest, found, rfl⟩
    rw [← String.toList_inj, chars, Php.eq_append_of_after? found, String.toList_ofList]
  · rintro rfl
    exact ⟨text.toList, by rw [chars, Php.after?_append], String.ofList_toList⟩

/-- A flag is its name and its value, with dashes in front and an equals sign in between. -/
theorem eq_of_flag? {word name value : String} (isFlag : flag? word = some (name, value)) :
    word = "--" ++ name ++ "=" ++ value := by
  unfold flag? at isFlag
  split at isFlag
  · rename_i text chars
    split at isFlag
    · rename_i first rest behind
      have isEquals : first = '=' := by
        have notPassed := List.head?_dropWhile_not (· != '=') text
        rw [behind] at notPassed
        simpa using notPassed
      have parts : text = text.takeWhile (· != '=') ++ '=' :: rest := by
        rw [isEquals] at behind
        rw [← behind, List.takeWhile_append_dropWhile]
      cases isFlag
      rw [← String.toList_inj, chars]
      simpa using parts
    · cases isFlag
  · cases isFlag

theorem fieldNamed?_text (name : FieldName) : fieldNamed? name.text = some name := by
  cases name <;> rfl

theorem text_of_fieldNamed? {text : String} {name : FieldName}
    (named : fieldNamed? text = some name) : name.text = text := by
  have found := List.find?_some named
  exact beq_iff_eq.mp found

theorem flag?_of_flagText? {name : FieldName} {word text : String}
    (given : flagText? name word = some text) : flag? word = some (name.text, text) := by
  have noEquals : '=' ∉ name.text.toList := by
    cases name <;> decide
  rw [flagText?_eq_some_iff.mp given, flag?_append noEquals]

/-! ## Drafts by flags -/

/-- A word gives a text to at most one field. -/
theorem addFlag_ofTexts (texts : FieldName → String) (word : String) :
    (Draft.ofTexts texts).addFlag word =
      .ofTexts fun name => (flagText? name word).getD (texts name) := by
  by_cases gives : ∃ name text, flagText? name word = some text
  · obtain ⟨name, text, given⟩ := gives
    have isFlag := flagText?_eq_some_iff.mp given
    rw [isFlag, addFlag_append, set_ofTexts, ← isFlag]
    congr 1
    funext other
    by_cases same : other = name
    · rw [same, given, Function.update_self, Option.getD_some]
    · have givesNone : flagText? other word = none := by
        rw [Option.eq_none_iff_forall_not_mem]
        intro otherText otherGiven
        have sameFlag := (flag?_of_flagText? otherGiven).symm.trans (flag?_of_flagText? given)
        have sameName := congrArg fieldNamed? (Prod.mk.inj (Option.some.inj sameFlag)).1
        rw [fieldNamed?_text, fieldNamed?_text] at sameName
        exact same (Option.some.inj sameName)
      rw [givesNone, Function.update_of_ne same, Option.getD_none]
  · have givesNone : ∀ name, flagText? name word = none := fun name =>
      Option.eq_none_iff_forall_not_mem.mpr fun text given => gives ⟨name, text, given⟩
    have unchanged : (Draft.ofTexts texts).addFlag word = .ofTexts texts := by
      rw [Draft.addFlag]
      split
      · rfl
      · rename_i text value isFlag
        split
        · rfl
        · rename_i name named
          rw [← text_of_fieldNamed? named] at isFlag
          exact absurd ⟨name, value, flagText?_eq_some_iff.mpr (eq_of_flag? isFlag)⟩ gives
    simp only [unchanged, givesNone, Option.getD_none]

/-- Flags describe the draft with the texts that they give. -/
theorem ofFlags_eq (flags : List String) : Draft.ofFlags flags = .ofTexts (flagText flags) := by
  induction flags using List.reverseRecOn with
  | nil => rfl
  | append_singleton flags flag inductionHypothesis =>
      rw [Draft.ofFlags, List.foldl_append, ← Draft.ofFlags, inductionHypothesis, List.foldl_cons,
        List.foldl_nil, addFlag_ofTexts]
      congr 1
      funext name
      rw [flagText, flagText, flagTexts, flagTexts, List.filterMap_append]
      cases given : flagText? name flag with
      | none => simp [given]
      | some text => simp [given]

/-- If at most one word gives a text to a field, the order of the words does not matter to it. -/
theorem flagText_perm {words permuted : List String} (permutes : permuted.Perm words)
    {name : FieldName} (once : (flagTexts words name).length ≤ 1) :
    flagText permuted name = flagText words name := by
  have permutesTexts : (flagTexts permuted name).Perm (flagTexts words name) :=
    permutes.filterMap (flagText? name)
  have sameTexts : flagTexts permuted name = flagTexts words name := by
    cases equal : flagTexts words name with
    | nil => exact List.perm_nil.mp (equal ▸ permutesTexts)
    | cons text later =>
        rw [equal] at once permutesTexts
        have alone : later = [] := by
          simpa using once
        rw [alone] at permutesTexts ⊢
        exact List.perm_singleton.mp permutesTexts
  rw [flagText, flagText, sameTexts]

/-! ## Reading a command -/

variable {flags : List String} {line : String}

theorem readEntry_creation (ids : Ids) (steps : List Step)
    (isLine : Shell.IsLineWith ("wp" :: "post" :: "create" :: flags) line) :
    readEntry ids steps (.known (.command line)) =
      if Text.trim (flagText flags .title) = "" then .error .noTitle
      else .ok (push ids steps (kindOf (flagText flags))) := by
  have asked : Request.ofWords? ("wp" :: "post" :: "create" :: flags) =
      some (.createPost flags) := rfl
  rw [readEntry, readInstruction, readCommand, isLine.split_eq, asked]
  simp only [readRequest, pushContent, ofFlags_eq, Draft.kind_ofTexts, String.isEmpty_iff]
  rfl

theorem ofEntries_creation (isLine : Shell.IsLineWith ("wp" :: "post" :: "create" :: flags) line)
    (ids : Ids) (before : List Entry) :
    ofEntries ids (before ++ [.known (.command line)]) =
      if Text.trim (flagText flags .title) = "" then
        (ofEntries ids before).drop before.length (.known (.command line)) .noTitle
      else
        (ofEntries ids before).accept
          (push ids (ofEntries ids before).steps (kindOf (flagText flags))) := by
  have reads := readEntry_creation ids (ofEntries ids before).steps isLine
  rw [ofEntries_append_singleton]
  split at reads
  · rename_i blank
    rw [read_of_error reads, if_pos blank]
  · rename_i titled
    rw [read_of_ok reads, if_neg titled]

/-- A command that makes content is read as one step with the texts of its flags, or dropped if its
title is blank.  The order of its words does not matter if none of them gives a text to a field that
has one. -/
theorem readsCreation (isLine : Shell.IsLineWith ("wp" :: "post" :: "create" :: flags) line)
    (ids : Ids) (before : List Entry) :
    (ofEntries ids (before ++ [.known (.command line)]) =
      if Text.trim (flagText flags .title) = "" then
        (ofEntries ids before).drop before.length (.known (.command line)) .noTitle
      else
        (ofEntries ids before).accept
          (push ids (ofEntries ids before).steps (kindOf (flagText flags)))) ∧
    ∀ {permuted : List String} {other : String}, permuted.Perm flags →
      (∀ name, (flagTexts flags name).length ≤ 1) →
        Shell.IsLineWith ("wp" :: "post" :: "create" :: permuted) other →
          ofEntries ids (before ++ [.known (.command other)]) =
            ofEntries ids (before ++ [.known (.command line)]) := by
  refine ⟨ofEntries_creation isLine ids before, fun {permuted other} permutes once isOther => ?_⟩
  have sameTexts : flagText permuted = flagText flags :=
    funext fun name => flagText_perm permutes (once name)
  rw [ofEntries_creation isOther, ofEntries_creation isLine, sameTexts]
  rfl

/-- A body with equals signs and a leading dash, a title with a quote, a type and a flag of no
field. -/
def mixedFlags : List String :=
  ["--post_content==-a=b", "--post_title=It's", "--post_type=page", "--porcelain"]

/-- A line that makes content, with words that are written in one part or in two and between either
kind of quotes. -/
def mixedLine : String :=
  "wp post create --post_content='=-a=b'\t\"--post_title=It's\"  --post_type=\"page\" --porcelain\n"

open Shell in
theorem isLineWith_mixedLine :
    IsLineWith ("wp" :: "post" :: "create" :: mixedFlags) mixedLine := by
  have areBlank : ∀ {gap : List Char}, gap.all Text.isBlank = true →
      ∀ c ∈ gap, Text.isBlank c = true := List.all_eq_true.mp
  have bare (text : String) (wellFormed : (Segment.bare text).WellFormed) :
      WritesPart text.toList text.toList := .bare wellFormed.1 wellFormed.2
  have quoted (mark : Php.Mark) (text : String) : WritesPart text.toList
      (mark.char :: Php.escape mark text.toList ++ [mark.char]) :=
    .quoted mark (encloses_escape mark text.toList)
  exact ⟨[], _, areBlank rfl,
    @WritesLine.cons "wp" _ _ [' '] _ (.single (bare "wp" (by decide))) (areBlank rfl)
      (by decide) <|
    @WritesLine.cons "post" _ _ [' '] _ (.single (bare "post" (by decide))) (areBlank rfl)
      (by decide) <|
    @WritesLine.cons "create" _ _ [' '] _ (.single (bare "create" (by decide))) (areBlank rfl)
      (by decide) <|
    @WritesLine.cons "--post_content==-a=b" _ _ ['\t'] _
      (.cons (bare "--post_content=" (by decide)) (.single (quoted .single "=-a=b"))) (areBlank rfl)
      (by decide) <|
    @WritesLine.cons "--post_title=It's" _ _ [' ', ' '] _
      (.single (quoted .double "--post_title=It's")) (areBlank rfl) (by decide) <|
    @WritesLine.cons "--post_type=page" _ _ [' '] _
      (.cons (bare "--post_type=" (by decide)) (.single (quoted .double "page"))) (areBlank rfl)
      (by decide) <|
    @WritesLine.cons "--porcelain" _ _ ['\n'] _ (.single (bare "--porcelain" (by decide)))
      (areBlank rfl) (by decide) .nil, by decide⟩

theorem readsCreation_mixedLine :
    Shell.IsLineWith ("wp" :: "post" :: "create" :: mixedFlags) mixedLine ∧
      ofEntries (fun _ => "made") [.known (.command mixedLine)] =
        { steps := [{ id := "made"
                      kind := .addPage {
                        title := "It's", body := "=-a=b", status := "", image := none } }]
          dropped := [] } ∧
      ofEntries (fun _ => "made") [.known (.command (Shell.line (Shell.quotedWords
          ("wp" :: "post" :: "create" :: mixedFlags.reverse))))] =
        ofEntries (fun _ => "made") [.known (.command mixedLine)] := by
  have reads := readsCreation isLineWith_mixedLine (fun _ => "made") []
  refine ⟨isLineWith_mixedLine, reads.1, ?_⟩
  have once : ∀ name, (flagTexts mixedFlags name).length ≤ 1 := by
    intro name
    cases name <;> decide
  exact reads.2 (List.reverse_perm mixedFlags) once (Shell.isLineWith_quotedWords _)

end SiteScript.Recovery
