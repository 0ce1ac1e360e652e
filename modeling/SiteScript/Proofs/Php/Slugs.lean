import SiteScript.Proofs.Php.Literals
import SiteScript.Proofs.Shell.Commands
import SiteScript.Proofs.Text.Runs

/-!
# Identifiers made from names

An identifier consists of runs of lower-case letters and digits with one underscore between
neighbours.  It is what one pass over the name makes that only looks at what it has made so far,
and it stands as it is in the program and in the command line of the role that it identifies.
-/

namespace SiteScript

namespace Php

open Text

/-! ## Runs in lower case -/

/-- The characters of the runs of an identifier. -/
def isLowerSlugChar (c : Char) : Bool :=
  isSlugChar c && c.toLower == c

theorem isLowerSlugChar_toLower {c : Char} (isSlug : isSlugChar c) : isLowerSlugChar c.toLower := by
  have lowered := of_isPayloadChar (fun d => !isSlugChar d || isLowerSlugChar d.toLower)
    (by decide) (isPayloadChar_of_isSlugChar isSlug)
  simpa [isSlug] using lowered

theorem not_isSlugChar_underscore : ¬ isSlugChar '_' := by
  decide

/-- A run of a name in lower case. -/
theorem isRun_toLower {run : List Char} (isRun : IsRun isSlugChar run) :
    IsRun isLowerSlugChar (run.map Char.toLower) := by
  refine ⟨fun empty => isRun.1 (List.map_eq_nil_iff.mp empty), List.forall_mem_map.mpr ?_⟩
  exact fun c inRun => isLowerSlugChar_toLower (isRun.2 c inRun)

/-- A run of an identifier is a run of a name that is in lower case already. -/
theorem isRun_and_toLower_eq {run : List Char} (isRun : IsRun isLowerSlugChar run) :
    IsRun isSlugChar run ∧ run.map Char.toLower = run := by
  simp only [IsRun, isLowerSlugChar, Bool.and_eq_true, beq_iff_eq] at isRun
  refine ⟨⟨isRun.1, fun c inRun => (isRun.2 c inRun).1⟩, ?_⟩
  exact (List.map_congr_left fun c inRun => (isRun.2 c inRun).2).trans (List.map_id run)

theorem slug_eq {name : String} {found : List (List Char)}
    (hasRuns : HasRuns isSlugChar name.toList found) :
    slug name = if found = [] then "custom_role"
      else .ofList (List.intercalate ['_'] (found.map fun run => run.map Char.toLower)) := by
  rw [slug, hasRuns.runs_eq]
  cases found <;> rfl

/-- Every identifier consists of runs in lower case. -/
theorem exists_runs_slug (name : String) : ∃ items : List (List Char), items ≠ [] ∧
    (∀ item ∈ items, IsRun isLowerSlugChar item) ∧
      (slug name).toList = List.intercalate ['_'] items := by
  have hasRuns := hasRuns_runs isSlugChar name.toList
  rw [slug_eq hasRuns]
  split
  · exact ⟨["custom".toList, "role".toList], by decide, by decide, by decide⟩
  · rename_i notEmpty
    refine ⟨_, fun empty => notEmpty (List.map_eq_nil_iff.mp empty), List.forall_mem_map.mpr ?_,
      String.toList_ofList⟩
    exact fun run isRun => isRun_toLower (isRun_of_mem_runs isRun)

theorem slug_ne_empty (name : String) : slug name ≠ "" := by
  obtain ⟨items, notEmpty, areRuns, chars⟩ := exists_runs_slug name
  intro empty
  rw [empty, String.toList_empty] at chars
  obtain ⟨item, rest, rfl⟩ := List.exists_cons_of_ne_nil notEmpty
  rw [intercalate_eq_append_flatMap] at chars
  exact (areRuns item List.mem_cons_self).1 (List.append_eq_nil_iff.mp chars.symm).1

theorem separates_slug (name : String) : Separates '_' (slug name).toList := by
  obtain ⟨items, -, areRuns, chars⟩ := exists_runs_slug name
  rw [chars]
  exact separates_intercalate_runs (by decide) areRuns

/-- An identifier is the one made from itself. -/
theorem slug_slug (name : String) : slug (slug name) = slug name := by
  obtain ⟨items, notEmpty, areRuns, chars⟩ := exists_runs_slug name
  have sameRuns : runs isSlugChar (slug name).toList = items := by
    rw [chars]
    exact runs_intercalate (fun item isItem => (isRun_and_toLower_eq (areRuns item isItem)).1)
      not_isSlugChar_underscore
  have sameCase : (items.map fun run => run.map Char.toLower) = items := by
    refine (List.map_congr_left fun item isItem => ?_).trans (List.map_id items)
    exact (isRun_and_toLower_eq (areRuns item isItem)).2
  rw [slug_eq (hasRuns_iff.mpr sameRuns), if_neg notEmpty, sameCase, ← chars, String.ofList_toList]

/-! ## Making an identifier in one pass -/

/-- One more character of a name is added to what has been made, kept last first: a letter or digit
in lower case, and an underscore for anything else unless there is one already. -/
def slugStep (made : List Char) (c : Char) : List Char :=
  if isSlugChar c then c.toLower :: made
  else if made.head? = some '_' then made
  else '_' :: made

/-- What one pass over a name makes, without the underscores at its ends. -/
def slugPass (name : List Char) : List Char :=
  ((name.foldl slugStep []).dropWhile (· = '_')).reverse.dropWhile (· = '_')

theorem foldl_slugStep_run {run : List Char} (kept : ∀ c ∈ run, isSlugChar c) (made : List Char) :
    run.foldl slugStep made = (run.map Char.toLower).reverse ++ made := by
  induction run generalizing made with
  | nil => rfl
  | cons c run inductionHypothesis =>
      obtain ⟨firstKept, runKept⟩ := List.forall_mem_cons.mp kept
      rw [List.foldl_cons, slugStep, if_pos firstKept, inductionHypothesis runKept]
      simp

/-- Behind an underscore what is not kept leaves no trace. -/
theorem foldl_slugStep_underscore {gap : List Char} (notKept : ∀ c ∈ gap, ¬ isSlugChar c)
    (made : List Char) : gap.foldl slugStep ('_' :: made) = '_' :: made := by
  induction gap with
  | nil => rfl
  | cons c gap inductionHypothesis =>
      obtain ⟨firstNotKept, gapNotKept⟩ := List.forall_mem_cons.mp notKept
      rw [List.foldl_cons, slugStep, if_neg firstNotKept, if_pos (List.head?_cons ..)]
      exact inductionHypothesis gapNotKept

/-- A gap becomes one underscore. -/
theorem foldl_slugStep_gap {gap : List Char} (notKept : ∀ c ∈ gap, ¬ isSlugChar c)
    {made : List Char} (behindRun : made.head? ≠ some '_') :
    gap.foldl slugStep made = if gap = [] then made else '_' :: made := by
  cases gap with
  | nil => rfl
  | cons c gap =>
      obtain ⟨firstNotKept, gapNotKept⟩ := List.forall_mem_cons.mp notKept
      rw [List.foldl_cons, slugStep, if_neg firstNotKept, if_neg behindRun,
        if_neg (List.cons_ne_nil c gap)]
      exact foldl_slugStep_underscore gapNotKept made

theorem dropWhile_underscore {made : List Char} (behindRun : made.head? ≠ some '_') :
    made.dropWhile (· = '_') = made := by
  cases made with
  | nil => rfl
  | cons c made => exact List.dropWhile_cons_of_neg (by simpa using behindRun)

theorem head?_append_of_isRun {run : List Char} (isRun : IsRun isLowerSlugChar run)
    (rest : List Char) : (run ++ rest).head? ≠ some '_' := by
  intro isFirst
  rw [List.head?_append_of_ne_nil run isRun.1] at isFirst
  exact absurd (isRun.2 '_' (List.mem_of_mem_head? isFirst)) (by decide)

/-- Behind a run there is no underscore. -/
theorem head?_reverse_toLower_append {run : List Char} (isRun : IsRun isSlugChar run)
    (made : List Char) : ((run.map Char.toLower).reverse ++ made).head? ≠ some '_' := by
  have reversed : IsRun isLowerSlugChar (run.map Char.toLower).reverse := by
    simpa [IsRun] using isRun_toLower isRun
  exact head?_append_of_isRun reversed made

/-- Behind a run the pass adds an underscore and a run in lower case for each run of the rest, and
perhaps one more underscore. -/
theorem dropWhile_foldl_slugStep {rest : List Char} {later : List (List Char)}
    (hasRuns : HasRuns isSlugChar rest later) (ended : ∀ c ∈ rest.head?, ¬ isSlugChar c)
    {made : List Char} (behindRun : made.head? ≠ some '_') :
    (rest.foldl slugStep made).dropWhile (· = '_') =
      (later.flatMap fun run => '_' :: run.map Char.toLower).reverse ++ made := by
  induction hasRuns generalizing made with
  | none notKept =>
      rw [foldl_slugStep_gap notKept behindRun]
      split
      · exact dropWhile_underscore behindRun
      · rw [List.dropWhile_cons_of_pos (by decide)]
        exact dropWhile_underscore behindRun
  | @cons gap run rest later notKept isRun restEnded _ inductionHypothesis =>
      have hasGap : gap ≠ [] := by
        rintro rfl
        obtain ⟨c, run, rfl⟩ := List.exists_cons_of_ne_nil isRun.1
        exact ended c rfl (isRun.2 c List.mem_cons_self)
      rw [List.foldl_append, List.foldl_append, foldl_slugStep_gap notKept behindRun,
        if_neg hasGap, foldl_slugStep_run isRun.2,
        inductionHypothesis restEnded (head?_reverse_toLower_append isRun _)]
      simp

/-- One pass makes the joined runs. -/
theorem slugPass_eq {name : List Char} {found : List (List Char)}
    (hasRuns : HasRuns isSlugChar name found) :
    slugPass name = List.intercalate ['_'] (found.map fun run => run.map Char.toLower) := by
  rw [slugPass]
  cases hasRuns with
  | none notKept =>
      rw [foldl_slugStep_gap notKept (by simp)]
      split <;> rfl
  | @cons gap run rest later notKept isRun ended hasRuns =>
      rw [List.foldl_append, List.foldl_append, foldl_slugStep_run isRun.2,
        dropWhile_foldl_slugStep hasRuns ended (head?_reverse_toLower_append isRun _),
        foldl_slugStep_gap notKept (by simp), List.map_cons, intercalate_eq_append_flatMap]
      have noUnderscore := dropWhile_underscore (head?_append_of_isRun (isRun_toLower isRun)
        (later.flatMap fun run => '_' :: run.map Char.toLower))
      rw [List.flatMap_map, List.reverse_append, List.reverse_append, List.reverse_reverse,
        List.reverse_reverse, List.append_assoc]
      split
      · exact noUnderscore
      · rw [List.reverse_singleton, List.singleton_append, List.dropWhile_cons_of_pos (by decide)]
        exact noUnderscore

/-- An identifier is what one pass over the name makes, unless that is nothing. -/
theorem slug_eq_slugPass (name : String) :
    slug name = if slugPass name.toList = [] then "custom_role"
      else .ofList (slugPass name.toList) := by
  have hasRuns := hasRuns_runs isSlugChar name.toList
  have empty_iff : slugPass name.toList = [] ↔ runs isSlugChar name.toList = [] := by
    rw [slugPass_eq hasRuns]
    cases equal : runs isSlugChar name.toList with
    | nil => simp
    | cons run later =>
        have isRun : IsRun isSlugChar run := isRun_of_mem_runs (equal ▸ List.mem_cons_self)
        simp [intercalate_eq_append_flatMap, isRun.1]
  rw [slug_eq hasRuns, if_congr empty_iff rfl rfl, slugPass_eq hasRuns]

/-! ## Identifiers in command lines -/

/-- The line that runs a program has the program in it as it is. -/
theorem line_run (program : Program) :
    (Command.run program).line = "wp eval '" ++ program.source ++ "'" := by
  rw [← String.toList_inj]
  simp only [Command.line, Command.words, Command.plain, Command.quoted, Shell.line,
    Shell.Segment.chars, List.map_cons, List.map_nil, List.flatMap_singleton,
    Command.quoteChars_source, String.toList_ofList]
  simp [List.intercalate]

/-- What a program begins with that adds a role. -/
theorem exists_source_addRole (name : String) (capabilities : List String) :
    ∃ rest : String, (Program.addRole name capabilities).source =
      "add_role(\"" ++ slug name ++ "\"" ++ rest := by
  refine ⟨.ofList (", ".toList ++ [Part.literal name, .fixed ", array_fill_keys(explode(\",\", ",
    .literal (",".intercalate capabilities), .fixed "), true));"].flatMap
      fun part => part.source.toList), ?_⟩
  rw [← String.toList_inj, Program.source]
  simp [Program.parts, Part.source]

theorem isBody_slug (name : String) : IsBody .double (slug name).toList := by
  refine .of_plain fun c inSlug => ?_
  have isIdentifier := isIdentifierChar_of_mem_slug inSlug
  constructor
  · rintro rfl
    exact absurd isIdentifier (by decide)
  · rintro rfl
    exact absurd isIdentifier (by decide)

/-- A literal without backslashes stands for itself. -/
theorem unescape_eq_self {body : List Char} (noBackslash : '\\' ∉ body) : unescape body = body := by
  induction body with
  | nil => rfl
  | cons c body inductionHypothesis =>
      obtain ⟨notFirst, notLater⟩ := not_or.mp (mt List.mem_cons.mpr noBackslash)
      rw [unescape_cons (Ne.symm notFirst), inductionHypothesis notLater]

/-- How the identifier of a role stands in the line that adds the role: without escapes, both in the
program and in the line. -/
structure StandsPlainly (name : String) (capabilities : List String) (rest : String) : Prop where
  line : (Command.run (.addRole name capabilities)).line =
    "wp eval 'add_role(\"" ++ slug name ++ "\"" ++ rest ++ "'"
  split : Shell.split (Command.run (.addRole name capabilities)).line =
    ["wp", "eval", "add_role(\"" ++ slug name ++ "\"" ++ rest]
  literal : value? ('"' :: ((slug name).toList ++ '"' :: rest.toList)) =
    some (.literal (slug name).toList, rest.toList)
  unescaped : unescape (slug name).toList = (slug name).toList

theorem exists_standsPlainly (name : String) (capabilities : List String) :
    ∃ rest, StandsPlainly name capabilities rest := by
  obtain ⟨rest, source⟩ := exists_source_addRole name capabilities
  refine ⟨rest, ?_, ?_, ?_, ?_⟩
  · rw [line_run, source, ← String.toList_inj]
    simp
  · rw [Command.split_line, Command.arguments_eq]
    exact congrArg (fun code => ["wp", "eval", code]) source
  · have read := literalBody?_append (isBody_slug name) [] rest.toList
    rw [Mark.char, List.reverse_nil, List.nil_append] at read
    rw [value?, read]
    rfl
  · refine unescape_eq_self fun inSlug => ?_
    exact absurd (isIdentifierChar_of_mem_slug inSlug) (by decide)

/-- The identifier made from a name consists of the runs of letters and digits of the name, as one
pass over the name finds them.  It is in normal form, and stands without escapes in the line that
adds the role. -/
theorem makesCanonicalSlug (name : String) :
    (∃ found, HasRuns isSlugChar name.toList found ∧
      slug name = if found = [] then "custom_role"
        else .ofList (List.intercalate ['_'] (found.map fun run => run.map Char.toLower))) ∧
    (slug name = if slugPass name.toList = [] then "custom_role"
      else .ofList (slugPass name.toList)) ∧
    slug name ≠ "" ∧ (∀ c ∈ (slug name).toList, isIdentifierChar c) ∧
    Separates '_' (slug name).toList ∧ slug (slug name) = slug name ∧
    ∀ capabilities, ∃ rest, StandsPlainly name capabilities rest :=
  ⟨⟨_, hasRuns_runs _ _, slug_eq (hasRuns_runs _ _)⟩, slug_eq_slugPass name, slug_ne_empty name,
    fun _ => isIdentifierChar_of_mem_slug, separates_slug name, slug_slug name,
    exists_standsPlainly name⟩

end Php

end SiteScript
