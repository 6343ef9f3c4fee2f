import TwinScreen.Arrangement
import TwinScreen.BigEndian
import TwinScreen.Bounds
import TwinScreen.Checksum
import TwinScreen.Color
import TwinScreen.Color.Notation
import TwinScreen.CommandLine.Chore
import TwinScreen.CommandLine.Number
import TwinScreen.CommandLine.Outcome
import TwinScreen.CommandLine.Usage
import TwinScreen.CommandLine.Viewer
import TwinScreen.CommandLine.Workshop
import TwinScreen.Compositor
import TwinScreen.Decimal.Nearest
import TwinScreen.Decimal.Shortest
import TwinScreen.Deflate.Bits
import TwinScreen.Deflate.Codebook
import TwinScreen.Deflate.Inflate
import TwinScreen.Deflate.Stored
import TwinScreen.Diagnostic
import TwinScreen.ErrorScreens
import TwinScreen.Fault
import TwinScreen.Files.Disk
import TwinScreen.Font
import TwinScreen.Frame
import TwinScreen.Main
import TwinScreen.Notice
import TwinScreen.Pixmap
import TwinScreen.Pixmap.Draw
import TwinScreen.Png.Data
import TwinScreen.Png.Decode
import TwinScreen.Png.Encode
import TwinScreen.Png.Header
import TwinScreen.Png.Preamble
import TwinScreen.Png.Rows
import TwinScreen.Png.Samples
import TwinScreen.Proofs.Bounds
import TwinScreen.Proofs.Color.Notation
import TwinScreen.Proofs.Compositor.History
import TwinScreen.Proofs.Compositor.Picture
import TwinScreen.Proofs.Compositor.Placing
import TwinScreen.Proofs.Pixmap.Copy
import TwinScreen.Proofs.Pixmap.Pixels
import TwinScreen.Proofs.Step
import TwinScreen.Proofs.Text.Capped
import TwinScreen.Proofs.Text.Compliance
import TwinScreen.Proofs.Text.Contents
import TwinScreen.Proofs.Text.Division
import TwinScreen.Proofs.Text.Filled
import TwinScreen.Proofs.Text.Greedy
import TwinScreen.Proofs.Text.Lengths
import TwinScreen.Proofs.Text.Lines
import TwinScreen.Proofs.Text.Room
import TwinScreen.Proofs.Text.Rows
import TwinScreen.Proofs.Text.Sums
import TwinScreen.Proofs.Toml.Number
import TwinScreen.Proofs.Toml.Reader
import TwinScreen.Resource
import TwinScreen.Resource.BodyFont
import TwinScreen.Resource.Icons
import TwinScreen.Resource.TitleFont
import TwinScreen.Screen
import TwinScreen.Screen.Drawing
import TwinScreen.Screen.Icon
import TwinScreen.Screenshot
import TwinScreen.Settings
import TwinScreen.Settings.Misfit
import TwinScreen.Settings.Printing
import TwinScreen.Settings.Reading
import TwinScreen.Settings.Storage
import TwinScreen.Step
import TwinScreen.Terminal
import TwinScreen.Terminal.Sequence
import TwinScreen.Text.Atom
import TwinScreen.Text.Blank
import TwinScreen.Text.Hexadecimal
import TwinScreen.Text.Invisible
import TwinScreen.Text.Paragraph
import TwinScreen.Text.Quoted
import TwinScreen.Toml.Document
import TwinScreen.Toml.Excerpt
import TwinScreen.Toml.Number
import TwinScreen.Toml.Reader
import TwinScreen.Toml.Statement
import TwinScreen.Toml.Text
import TwinScreen.Toml.Value
import TwinScreen.Typeface.CharacterMap
import TwinScreen.Typeface.Coverage
import TwinScreen.Typeface.Kerning
import TwinScreen.Typeface.Outline
import TwinScreen.Typeface.Rounding
import TwinScreen.Typeface.Tables
import TwinScreen.Typesetter
import TwinScreen.Window
import TwinScreen.Proofs.Toml.Outline
import TwinScreen.Proofs.Toml.Tables
import TwinScreen.Proofs.Settings.RoundTrip
import TwinScreen.Proofs.Files.Disk
import TwinScreen.Proofs.Settings.Storage
import TwinScreen.Proofs.Compositor.Readiness
import TwinScreen.Proofs.Pixmap.Changes
import TwinScreen.Proofs.Frame.Contents
import TwinScreen.Proofs.Frame.Recording
import TwinScreen.Proofs.Frame.Showing
import TwinScreen.Proofs.Text.Fewest
import TwinScreen.Proofs.Color.Blending
import TwinScreen.Proofs.Pixmap.Drawing
import TwinScreen.Proofs.Typesetter
import TwinScreen.Proofs.Screen.Painting
import TwinScreen.Proofs.Screen.Offsets
import TwinScreen.Proofs.Screen.Parts
import TwinScreen.Proofs.Screen.Colors
import TwinScreen.Proofs.Bytes
import TwinScreen.Proofs.Png.Chunks
import TwinScreen.Proofs.Deflate.Stored
import TwinScreen.Proofs.Png.Rows
import TwinScreen.Proofs.Png.RoundTrip
import TwinScreen.Proofs.Screenshot
import TwinScreen.Proofs.Color.Rounding
import TwinScreen.Proofs.Text.Unchanged
import TwinScreen.Proofs.Pixmap.Compositing
import TwinScreen.Proofs.Pixmap.Cropping
import TwinScreen.Proofs.Color.Acceptance
import TwinScreen.Proofs.Pixmap.Opaque
import TwinScreen.Proofs.Compositor.Single
import TwinScreen.Proofs.Compositor.Failures
import TwinScreen.Proofs.Compositor.LatestRenderer
import TwinScreen.Proofs.Settings.Fallback
import TwinScreen.Proofs.Toml.Lookup
import TwinScreen.Proofs.Toml.Throughout
import TwinScreen.Proofs.Toml.Grafting
import TwinScreen.Proofs.Toml.Plain
import TwinScreen.Proofs.Settings.Groups
import TwinScreen.Proofs.Settings.Choices
import TwinScreen.Proofs.Settings.Partial
import TwinScreen.Proofs.Screen.Icons
import TwinScreen.Proofs.Window
import TwinScreen.Proofs.Text.Short
import TwinScreen.Proofs.Png.Expansion
import TwinScreen.Proofs.Png.Samples
import TwinScreen.Proofs.Pixmap.Replacing
import TwinScreen.Proofs.Text.Scanning
