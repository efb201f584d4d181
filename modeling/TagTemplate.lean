import TagTemplate.Callable.Recipe
import TagTemplate.CommandLine.Program
import TagTemplate.Engine.Describe
import TagTemplate.Main
import TagTemplate.Number.Text
import TagTemplate.Proofs.Engine.Append
import TagTemplate.Proofs.Engine.Body
import TagTemplate.Proofs.Engine.Ceiling
import TagTemplate.Proofs.Engine.Faithful
import TagTemplate.Proofs.Engine.Headroom
import TagTemplate.Proofs.Engine.Indentation
import TagTemplate.Proofs.Engine.Lookup
import TagTemplate.Proofs.Engine.Unmentioned
import TagTemplate.Proofs.Engine.Woven
import TagTemplate.Proofs.Project.Sound
import TagTemplate.Proofs.Template.Heading
import TagTemplate.Proofs.Template.Outline
import TagTemplate.Proofs.Template.Sketch
import TagTemplate.Proofs.Template.Unclosed
import TagTemplate.Value.Data
import TagTemplate.Proofs.Template.Between
import TagTemplate.Proofs.Project.Visited
import TagTemplate.Proofs.Value.Index
import TagTemplate.Proofs.Engine.Sharing
import TagTemplate.Proofs.Engine.Depth
import TagTemplate.Proofs.Engine.Numbers
import TagTemplate.Proofs.Engine.Complement
import TagTemplate.Proofs.Template.Excerpt
import TagTemplate.Proofs.Engine.Sourceless
import TagTemplate.Proofs.Unescape
import TagTemplate.Proofs.Template.MovedLines
import TagTemplate.Proofs.Template.Places
import TagTemplate.Proofs.Template.MissingClosing
import TagTemplate.Proofs.Number.Magnitude
import TagTemplate.Proofs.Number.Rounding
import TagTemplate.Proofs.Number.Grid
import TagTemplate.Proofs.Number.Shortest
import TagTemplate.Proofs.Number.Reading
import TagTemplate.Proofs.Number.Layout
import TagTemplate.Proofs.Number.Display
import TagTemplate.Proofs.Value.Access
import TagTemplate.Proofs.Scan.Moves
import TagTemplate.Proofs.Listing
import TagTemplate.Proofs.Project.Report
import TagTemplate.Proofs.CommandLine.Files
