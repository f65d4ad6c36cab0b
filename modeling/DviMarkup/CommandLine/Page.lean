/-
  Whole pages around converted markup.

  * `page` is a page with a title that shows the markup in its middle.
-/
import DviMarkup.Text.Escape

namespace DviMarkup.CommandLine

/-- A block of the style sheet. -/
def styleBlock (name : String) (lines : List String) : List String :=
  ("            " ++ name ++ " \x7b") :: lines.map ("                " ++ ·) ++ ["            \x7d"]

/-- The lines before the title. -/
def pageStart : List String :=
  ["<!DOCTYPE html>",
    "<html lang=\"en-US\">",
    "    <head>",
    "        <meta charset=\"utf-8\">",
    "        <meta name=\"viewport\" content=\"width=device-width, initial-scale=1.0\">"]

/-- The lines between the title and the markup. -/
def pageStyle : List String :=
  ["        <link rel=\"stylesheet\" href=\"fonts.css\">", "        <style>"] ++
    styleBlock ".svg-container" ["margin: 10px auto;", "width: -moz-fit-content;",
      "width: fit-content;", "height: -moz-fit-content;", "height: fit-content;"] ++
    ["            .svg-container svg \x7b overflow: visible; \x7d", "        </style>",
      "    </head>", "    <body>"]

/-- The lines after the markup. -/
def pageEnd : List String :=
  ["    </body>", "</html>"]

/-- A page that shows the markup. -/
def page [Escaping] (title fragment : String) : String :=
  let lines := pageStart ++ ["        <title>" ++ Escaping.content title ++ "</title>"] ++
    pageStyle ++ ["        <div class=\"svg-container\">" ++ fragment ++ "</div>"] ++ pageEnd
  String.join (lines.map (· ++ "\n"))

end DviMarkup.CommandLine
