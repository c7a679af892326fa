import Lectern.Files.Tree

/-!
# The packaged theme

The theme that comes with the program, as the lines of its files, and the place where it is planted
among the files of a run.
-/

namespace Lectern.Theme.Packaged

/-- The configuration. -/
def config : List String :=
  ["# Default orfalius theme", "", "name: default",
    "description: Plain course-notes layout with an embedded slide reader", "",
    "# Default titles of directive blocks opened without one", "labels:", "  warning: Warning",
    "  question: Question", "  answer: Answer", "", "code:",
    "  # Used when highlight_code is enabled", "  pygments_style: default", "",
    "# Folders copied verbatim to the site root", "assets:", "  - css", "  - js", "  - fonts",
    "  - icons"]

/-- The page template. -/
def template : List String :=
  ["<!DOCTYPE html>", "<html lang=\"en\">", "<head>", "    <meta charset=\"utf-8\">",
    "    <meta name=\"viewport\" content=\"width=device-width, initial-scale=1\">",
    "    <title>\x7b\x7b title \x7d\x7d</title>",
    "    <link rel=\"stylesheet\" href=\"\x7b\x7b prefix \x7d\x7dcss/orfalius.css\">",
    "    <link rel=\"stylesheet\" href=\"\x7b\x7b prefix \x7d\x7dcss/pygments.css\">", "</head>",
    "<body>", "    <div class=\"container\">", "        <header>",
    "            <a href=\"\">expand all</a>", "            <a href=\"\">collapse all</a>",
    "        </header>", "        <main>", "\x7b\x7b contents|safe \x7d\x7d", "        </main>",
    "    </div>", "</body>", "</html>"]

/-- The style sheet of the layout. -/
def stylesheet : List String :=
  ["body \x7b", "    margin: 0;", "    font-family: sans-serif;", "    line-height: 1.5;",
    "\x7d", "", "div.container \x7b", "    max-width: 50em;", "    margin: 0 auto;",
    "    padding: 1em;", "\x7d", "", "header \x7b", "    text-align: right;", "\x7d", "",
    "header > a \x7b", "    margin-left: 1em;", "\x7d", "", "p.alert \x7b",
    "    padding: 0.5em 1em;", "    border-left: 4px solid #c00;", "    background: #fee;",
    "\x7d", "", "blockquote.warning,", "blockquote.question \x7b", "    margin: 1em 0;",
    "    padding: 0.5em 1em;", "    border-left: 4px solid #999;", "\x7d", "",
    "blockquote.warning > p:first-child,", "blockquote.question > p:first-child \x7b",
    "    font-weight: bold;", "\x7d", "", "details.answer,", "details.file,",
    "details.section \x7b", "    margin: 1em 0;", "\x7d", "", "details > summary \x7b",
    "    cursor: pointer;", "    font-weight: bold;", "\x7d", "", "div.item \x7b",
    "    display: flex;", "    gap: 1em;", "\x7d", "", "figure.img,", "figure.table,",
    "figure.video \x7b", "    margin: 1em 0;", "    text-align: center;", "\x7d", "",
    "figure.video video \x7b", "    max-width: 100%;", "\x7d", "", "table.cross td \x7b",
    "    text-align: center;", "\x7d", "", "code.terminal \x7b", "    background: #222;",
    "    color: #eee;", "\x7d", "", "pre.times \x7b", "    display: none;", "\x7d", "",
    "div.animation img.frame \x7b", "    display: none;", "\x7d", "", "div.slide \x7b",
    "    display: none;", "    position: relative;", "    aspect-ratio: 704 / 396;",
    "    overflow: hidden;", "\x7d", "", "div.slide-container \x7b", "    width: 704px;",
    "    height: 396px;", "    transform-origin: top left;", "\x7d", "",
    "div.reader-display div.stamp \x7b", "    display: none;", "    position: absolute;", "\x7d",
    "", "video.reader-lecture \x7b", "    display: none;", "\x7d", "", "kbd \x7b",
    "    padding: 0 0.3em;", "    border: 1px solid #aaa;", "    border-radius: 3px;", "\x7d",
    "", "span.md-colorify--red \x7b", "    color: #c00;", "\x7d", "",
    "span.md-colorify--green \x7b", "    color: #080;", "\x7d", "",
    "span.md-colorify--blue \x7b", "    color: #00c;", "\x7d", "",
    "span.md-colorify--orange \x7b", "    color: #e80;", "\x7d", "",
    "span.md-colorify--gray \x7b", "    color: #777;", "\x7d"]

def fileOf (lines : List String) : FileNode :=
  .file (Text.encode (lines.flatMap fun l => l.toList ++ ['\n']))

/-- The files of the theme, each with its parts seen from the folder of themes. -/
def files : List (List Text × FileNode) :=
  [(["default", "theme.yaml"], fileOf config), (["default", "template.html"], fileOf template),
    (["default", "css", "orfalius.css"], fileOf stylesheet)]

/-- A tree with the theme planted below the folder of themes at `place`. -/
def plant (place : List Text) (t : FileTree) : FileTree :=
  files.foldl (fun t f => t.plant (place ++ f.1) f.2) t

end Lectern.Theme.Packaged
