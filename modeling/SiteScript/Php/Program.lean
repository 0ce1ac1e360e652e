import SiteScript.Link
import SiteScript.Plan.Step

/-!
# Pieces of PHP

The programs that a script runs where no instruction of its own exists.  A text
of the author never stands in such a program as it is: it travels in Base64 inside
an expression that unpacks it, so the program around it is fixed.
-/

namespace SiteScript.Php

/-- A part of a program. -/
inductive Part where
  /-- Program text. -/
  | fixed (source : String)
  /-- An expression that yields a text. -/
  | literal (value : String)
  /-- An identifier made from a text. -/
  | slug (value : String)
  deriving Repr, DecidableEq

/-- An expression that yields a text and needs no quoting. -/
def textExpression (value : String) : String :=
  match Link.encode value with
  | .ok packed => "base64_decode(\"" ++ packed ++ "\")"
  | .error _ => "\"\""

/-- The program text of a part. -/
def Part.source : Part → String
  | .fixed source => source
  | .literal value => textExpression value
  | .slug value => value

/-- Whether a character may stand in an identifier. -/
def isSlugChar (c : Char) : Bool :=
  ('a' ≤ c && c ≤ 'z') || ('A' ≤ c && c ≤ 'Z') || ('0' ≤ c && c ≤ '9')

/-- The identifier made from a name: its runs of letters and digits of ASCII, in lower case
and joined by underscores. -/
def slug (name : String) : String :=
  match Text.runs isSlugChar name.toList with
  | [] => "custom_role"
  | runs => .ofList (List.intercalate ['_'] (runs.map fun run => run.map Char.toLower))

/-- The programs. -/
inductive Program where
  /-- Makes a page or post. -/
  | insertPost (type : PostType) (status title body : String)
  /-- Gives the last stored file to a page or post as its featured image. -/
  | attachImage (target : CreatedContent)
  /-- Adds a user role. -/
  | addRole (name : String) (capabilities : List String)
  /-- Makes an existing page or post the home page. -/
  | setHomepage (target : CreatedContent)
  /-- Makes an existing page or post the posts page. -/
  | setPostsPage (target : CreatedContent)
  /-- Adds a page or post to a menu. -/
  | addMenuItem (menu : String) (target : CreatedContent)
  deriving Repr, DecidableEq

/-- An expression that looks up a page or post by its type and title. -/
def lookup (target : CreatedContent) : List Part :=
  [.fixed ("get_posts(array(\"post_type\" => \"" ++ target.type.name ++ "\", \"title\" => "),
    .literal target.title, .fixed ", \"post_status\" => \"any\", \"numberposts\" => 1))"]

/-- The parts of a program. -/
def Program.parts : Program → List Part
  | .insertPost type status title body =>
    [.fixed ("wp_insert_post(array(\"post_type\" => \"" ++ type.name ++ "\", \"post_status\" => "),
      .literal status, .fixed ", \"post_title\" => ", .literal title,
      .fixed ", \"post_content\" => ", .literal body, .fixed "));"]
  | .attachImage target =>
    .fixed "$posts = " :: lookup target ++
      [.fixed ("; $media = get_posts(array(\"post_type\" => \"attachment\", " ++
        "\"post_status\" => \"any\", \"numberposts\" => 1, \"orderby\" => \"ID\", " ++
        "\"order\" => \"DESC\")); if ($posts && $media) \x7b " ++
        "set_post_thumbnail($posts[0]->ID, $media[0]->ID); \x7d")]
  | .addRole name capabilities =>
    [.fixed "add_role(\"", .slug (slug name), .fixed "\", ", .literal name,
      .fixed ", array_fill_keys(explode(\",\", ", .literal (",".intercalate capabilities),
      .fixed "), true));"]
  | .setHomepage target =>
    .fixed "$pages = " :: lookup target ++
      [.fixed ("; if ($pages) \x7b update_option(\"show_on_front\", \"page\"); " ++
        "update_option(\"page_on_front\", $pages[0]->ID); \x7d")]
  | .setPostsPage target =>
    .fixed "$pages = " :: lookup target ++
      [.fixed "; if ($pages) \x7b update_option(\"page_for_posts\", $pages[0]->ID); \x7d"]
  | .addMenuItem menu target =>
    [.fixed "$menu = wp_get_nav_menu_object(", .literal menu, .fixed "); $posts = "] ++
      lookup target ++
      [.fixed ("; if ($menu && $posts) \x7b wp_update_nav_menu_item($menu->term_id, 0, " ++
        "array(\"menu-item-title\" => $posts[0]->post_title, " ++
        "\"menu-item-object-id\" => $posts[0]->ID, " ++
        "\"menu-item-object\" => $posts[0]->post_type, \"menu-item-type\" => \"post_type\", " ++
        "\"menu-item-status\" => \"publish\")); \x7d")]

/-- The text of a program. -/
def Program.source (program : Program) : String :=
  .ofList (program.parts.flatMap fun part => part.source.toList)

end SiteScript.Php
