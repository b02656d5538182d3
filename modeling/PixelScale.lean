import PixelScale.CommandLine.Arguments
import PixelScale.CommandLine.Convert
import PixelScale.CommandLine.Inputs
import PixelScale.CommandLine.Jobs
import PixelScale.CommandLine.Loading
import PixelScale.CommandLine.Run
import PixelScale.CommandLine.Template
import PixelScale.Files.Content
import PixelScale.Files.Disk
import PixelScale.Files.Error
import PixelScale.Files.Glob
import PixelScale.Files.Path
import PixelScale.Files.Tree
import PixelScale.Host
import PixelScale.Json.Mismatch
import PixelScale.Json.Parser
import PixelScale.Json.Printer
import PixelScale.Json.Value
import PixelScale.Json5.Parser
import PixelScale.Machine
import PixelScale.MatchRule
import PixelScale.Number.Double
import PixelScale.Number.Layout
import PixelScale.Number.Numeral
import PixelScale.Number.Rounding
import PixelScale.Number.Shortest
import PixelScale.OptionSet
import PixelScale.Options.Basic
import PixelScale.Options.Coding
import PixelScale.Options.Configuration
import PixelScale.Options.Error
import PixelScale.Options.Format
import PixelScale.Options.Record
import PixelScale.Options.Renaming
import PixelScale.Pixel.Conversion
import PixelScale.Pixel.Segment
import PixelScale.Proofs.Number.Characters
import PixelScale.Proofs.Pixel.Conversion
import PixelScale.Proofs.Pixel.Respelling
import PixelScale.Proofs.Stylesheet.Alike
import PixelScale.Proofs.Stylesheet.Faithful
import PixelScale.Proofs.Stylesheet.Form
import PixelScale.Proofs.Stylesheet.Passage
import PixelScale.Proofs.Stylesheet.Printing
import PixelScale.Proofs.Stylesheet.Content
import PixelScale.Proofs.Stylesheet.Comments
import PixelScale.Proofs.Stylesheet.Reading
import PixelScale.Proofs.Stylesheet.Revision
import PixelScale.Proofs.Stylesheet.Rewriting
import PixelScale.Proofs.Stylesheet.Row
import PixelScale.Proofs.Stylesheet.Scan
import PixelScale.Proofs.Stylesheet.Splice
import PixelScale.Proofs.Text.Trimming
import PixelScale.Proofs.Transform
import PixelScale.Proofs.Transform.Modes
import PixelScale.Proofs.Transform.Outcome
import PixelScale.PropertyFilter
import PixelScale.Regex.Matching
import PixelScale.Regex.Normal
import PixelScale.Regex.Parser
import PixelScale.Regex.Reading
import PixelScale.Regex.Size
import PixelScale.Regex.Syntax
import PixelScale.Report
import PixelScale.RunLog
import PixelScale.Stylesheet.Address
import PixelScale.Stylesheet.Error
import PixelScale.Stylesheet.Node
import PixelScale.Stylesheet.Parser
import PixelScale.Stylesheet.Patch
import PixelScale.Stylesheet.Piece
import PixelScale.Stylesheet.Place
import PixelScale.Stylesheet.Printer
import PixelScale.Stylesheet.Statement
import PixelScale.Text
import PixelScale.Text.Blank
import PixelScale.Text.Case
import PixelScale.Text.Digit
import PixelScale.Text.Hidden
import PixelScale.Text.Quoted
import PixelScale.Text.Ranges
import PixelScale.Text.Utf8
import PixelScale.Timestamp
import PixelScale.Toml.Moment
import PixelScale.Toml.Parser
import PixelScale.Toml.Table
import PixelScale.Transform
import PixelScale.Unicode.Age
import PixelScale.Unicode.Break
import PixelScale.Unicode.Category
import PixelScale.Unicode.Name
import PixelScale.Unicode.Property
import PixelScale.Unicode.Script
import PixelScale.Unicode.Table
import PixelScale.Unicode.Word
import PixelScale.Main
import PixelScale.Proofs.Transform.Stability
import PixelScale.Proofs.Stylesheet.Joining
import PixelScale.Proofs.Transform.Bundle
import PixelScale.Proofs.Transform.Tally
import PixelScale.Proofs.Transform.Comments
import PixelScale.Proofs.Files.Tree
import PixelScale.Proofs.Files.Path
import PixelScale.Proofs.Files.Walking
import PixelScale.Proofs.Files.Operations
import PixelScale.Proofs.Process
import PixelScale.Proofs.Files.Growth
import PixelScale.Proofs.CommandLine.Writing
import PixelScale.Proofs.CommandLine.Inputs
import PixelScale.Proofs.CommandLine.Jobs
import PixelScale.Proofs.Stylesheet.Continuation
import PixelScale.Proofs.Stylesheet.Spans
import PixelScale.Proofs.CommandLine.Looking
import PixelScale.Proofs.CommandLine.Outcomes
import PixelScale.Proofs.CommandLine.Logging
import PixelScale.Proofs.CommandLine.Gathering
import PixelScale.Proofs.CommandLine.Watching
import PixelScale.Proofs.CommandLine.Arguments
import PixelScale.Proofs.CommandLine.Checking
import PixelScale.Proofs.Transform.Guard
import PixelScale.Proofs.Pixel.Skipping
import PixelScale.Proofs.Number.Numerals
import PixelScale.Proofs.Pixel.Recognition
import PixelScale.Proofs.Pixel.Stability
import PixelScale.Proofs.Pixel.Quoting
import PixelScale.Proofs.PropertyFilter
import PixelScale.Proofs.Pixel.Parts
import PixelScale.Proofs.Transform.Thorough
import PixelScale.Proofs.Pixel.Merging
import PixelScale.Proofs.Options.Renaming
import PixelScale.Proofs.Options.Overriding
import PixelScale.Proofs.Options.Coding
import PixelScale.Proofs.Text.LineEnds
import PixelScale.Proofs.Transform.LineEnds
import PixelScale.Proofs.Json.Reading
import PixelScale.Proofs.RunLog
import PixelScale.Proofs.Files.Order
import PixelScale.Proofs.Files.Naming
import PixelScale.Proofs.Files.Search
import PixelScale.Proofs.CommandLine.Searching
import PixelScale.Proofs.Lists
import PixelScale.Proofs.Options.Spelling
import PixelScale.Proofs.Options.Configuring
import PixelScale.Proofs.Number.Binary
import PixelScale.Proofs.Number.Rounded
import PixelScale.Proofs.Number.Arithmetic
import PixelScale.Proofs.Number.Overflow
import PixelScale.Proofs.Pixel.Overflow
import PixelScale.Proofs.Number.Exact
