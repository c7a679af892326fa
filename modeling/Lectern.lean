import Lectern.Command.Flag
import Lectern.Command.Reply
import Lectern.Command.Request
import Lectern.Command.Word
import Lectern.Decimal.Shortest
import Lectern.Decimal.Written
import Lectern.Document
import Lectern.Files.Copy
import Lectern.Files.Glob
import Lectern.Files.Path
import Lectern.Files.Select
import Lectern.Files.Tree
import Lectern.Highlight.Lexer
import Lectern.Highlight.Markup
import Lectern.Html.Node
import Lectern.Html.Token
import Lectern.Html.Tree
import Lectern.Html.Written
import Lectern.Image.Source
import Lectern.Include
import Lectern.Journal
import Lectern.Main
import Lectern.Markdown.Address
import Lectern.Markdown.Block.Basic
import Lectern.Markdown.Block.Parser
import Lectern.Markdown.Block.Start
import Lectern.Markdown.Directive
import Lectern.Markdown.Escape
import Lectern.Markdown.Inline.Cursor
import Lectern.Markdown.Inline.Leaf
import Lectern.Markdown.Inline.Nested
import Lectern.Markdown.Inline.Token
import Lectern.Markdown.Line
import Lectern.Markdown.Link
import Lectern.Markdown.Render
import Lectern.Markdown.Tag
import Lectern.Markdown.Typography
import Lectern.Page.Code
import Lectern.Page.Lecture
import Lectern.Page.Structure
import Lectern.Page.Walk
import Lectern.Paragraph.Sigil
import Lectern.Settings
import Lectern.Site.Basic
import Lectern.Site.Build
import Lectern.Slides.Lecture
import Lectern.Slides.Presentation
import Lectern.Slides.Quantity
import Lectern.Slides.Reader
import Lectern.Slides.Recorder
import Lectern.Slides.Written
import Lectern.Text.Basic
import Lectern.Text.Blank
import Lectern.Text.Case
import Lectern.Text.Case.Context
import Lectern.Text.Digit
import Lectern.Text.Entity
import Lectern.Text.Entity.Table
import Lectern.Text.Percent
import Lectern.Text.Punctuation
import Lectern.Text.Quoted
import Lectern.Text.Utf8
import Lectern.Text.Word
import Lectern.Text.Wrap
import Lectern.Theme.Config
import Lectern.Theme.Packaged
import Lectern.Theme.Template.Call
import Lectern.Theme.Template.Fault
import Lectern.Theme.Template.Filter
import Lectern.Theme.Template.Filter.Number
import Lectern.Theme.Template.Filter.Phrase
import Lectern.Theme.Template.Filter.Row
import Lectern.Theme.Template.Filter.Script
import Lectern.Theme.Template.Method
import Lectern.Theme.Template.Method.Given
import Lectern.Theme.Template.Method.Text
import Lectern.Theme.Template.Part
import Lectern.Theme.Template.Pattern
import Lectern.Theme.Template.Render
import Lectern.Theme.Template.Signature
import Lectern.Theme.Template.Term
import Lectern.Theme.Template.Test
import Lectern.Theme.Template.Token
import Lectern.Theme.Template.Value
import Lectern.Theme.Template.Value.Format
import Lectern.Theme.Template.Value.Member
import Lectern.Theme.Template.Value.Operation
import Lectern.Theme.Template.Value.Order
import Lectern.Yaml.Calendar
import Lectern.Yaml.Cursor
import Lectern.Yaml.Fault
import Lectern.Yaml.Meaning
import Lectern.Yaml.Node
import Lectern.Yaml.Scalar
import Lectern.Yaml.Token
import Lectern.Yaml.Value
import Lectern.Yaml.Word
import Lectern.Proofs.Times
import Lectern.Proofs.Lecture.Run
import Lectern.Proofs.Lecture.Stamp
import Lectern.Proofs.Lecture.Position
import Lectern.Proofs.Lecture.Session
import Lectern.Proofs.Lecture.Rest
import Lectern.Proofs.Lecture.Overlap
import Lectern.Proofs.Lecture.Standstill
import Lectern.Proofs.Recorder.Run
import Lectern.Proofs.Reader
import Lectern.Proofs.Recorder.Rehearsal
import Lectern.Proofs.Recorder.Totals
import Lectern.Proofs.Recorder.Entries
import Lectern.Proofs.Include.Expansion
import Lectern.Proofs.Html.Elements
import Lectern.Proofs.Html.Serial
import Lectern.Proofs.Walk.Run
import Lectern.Proofs.Walk.Taken
import Lectern.Proofs.Walk.Shape
import Lectern.Proofs.Walk.Dressed
import Lectern.Proofs.Walk.Plain
import Lectern.Proofs.Html.Reading
import Lectern.Proofs.Html.Values
import Lectern.Proofs.Html.Attributes
import Lectern.Proofs.Html.Grown
import Lectern.Proofs.Html.Back
import Lectern.Proofs.Html.Apart
import Lectern.Proofs.Highlight.Written
import Lectern.Proofs.Highlight.Lexed
import Lectern.Proofs.Markdown.Sound
import Lectern.Proofs.Walk.Places
import Lectern.Proofs.Walk.Tidy
import Lectern.Proofs.Walk.Shows
import Lectern.Proofs.Walk.Sigils
import Lectern.Proofs.Walk.Visits
import Lectern.Proofs.Walk.Images
import Lectern.Proofs.Files.Change
import Lectern.Proofs.Files.Alike
import Lectern.Proofs.Files.Copied
import Lectern.Proofs.Files.Found
import Lectern.Proofs.Files.Echo
import Lectern.Proofs.Site.Stages
import Lectern.Proofs.Site.Documents
import Lectern.Proofs.Site.Layout
import Lectern.Proofs.Site.Survival
import Lectern.Proofs.Site.Alone
import Lectern.Proofs.Site.Again
import Lectern.Proofs.Walk.Comes
import Lectern.Proofs.Walk.Finds
import Lectern.Proofs.Walk.Marked
import Lectern.Proofs.Walk.Video
import Lectern.Proofs.Recorder.Handed
import Lectern.Proofs.Recorder.Takes
import Lectern.Proofs.Structure
import Lectern.Proofs.Walk.Names
import Lectern.Proofs.Walk.InColours
import Lectern.Proofs.Walk.Given
import Lectern.Proofs.Walk.Upon
import Lectern.Proofs.Walk.Yields
import Lectern.Proofs.Walk.Standing
import Lectern.Proofs.Walk.Rectangular
import Lectern.Proofs.Markdown.Colour
import Lectern.Proofs.Markdown.Dry
import Lectern.Proofs.Markdown.Step
import Lectern.Proofs.Markdown.Window
import Lectern.Proofs.Markdown.Spelled
import Lectern.Proofs.Image.Directive
import Lectern.Proofs.Percent
import Lectern.Proofs.Image.InFolder
import Lectern.Proofs.Walk.Frames
import Lectern.Proofs.Presentation
import Lectern.Proofs.Sigil
import Lectern.Proofs.Markdown.Wrappers
import Lectern.Proofs.Alerts
import Lectern.Proofs.Query
import Lectern.Proofs.Scaling
import Lectern.Proofs.Html.Onward
import Lectern.Proofs.Markdown.Spaced
import Lectern.Proofs.Markdown.Strip
import Lectern.Proofs.Walk.Strip
