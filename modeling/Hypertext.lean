import Hypertext.TagList
import Hypertext.Layout.Lemmas
import Hypertext.Page
import Hypertext.Component
import Hypertext.Equality
import Hypertext.Response
import Hypertext.Log.Entry
import Hypertext.Log.Report
import Hypertext.Log.Logger
import Hypertext.Proofs.Content.Flat
import Hypertext.Proofs.Content.Trail
import Hypertext.Proofs.Markup.Offence
import Hypertext.Proofs.Markup.RoundTrip
import Hypertext.Proofs.Markup.WellTyped
import Hypertext.Proofs.Markup.Normal
import Hypertext.Proofs.Content.Nodes
import Hypertext.Proofs.Layout.Alike
import Hypertext.Proofs.Record.LastWrites
import Hypertext.Proofs.Record.Keyed
import Hypertext.Proofs.Content.Attributes
import Hypertext.Proofs.Content.Pieces
import Hypertext.Proofs.TagList.Typed
import Hypertext.Proofs.Calls
import Hypertext.Proofs.Equality
import Hypertext.Proofs.TagList.Meaning
import Hypertext.Proofs.TagList.Defects
import Hypertext.Proofs.Layout.Again
import Hypertext.Proofs.Markup.Dissolved
import Hypertext.Proofs.Shallow
import Hypertext.Proofs.Layout.Veiled
import Hypertext.Proofs.Content.Joined
import Hypertext.Proofs.Content.Spliced
import Hypertext.Proofs.Markup.Joined
import Hypertext.Proofs.Markup.Page
import Hypertext.Proofs.Text.Parts
import Hypertext.Proofs.Response.Decided
import Hypertext.Proofs.Response.Accepted
import Hypertext.Proofs.Process
import Hypertext.Proofs.Log.Configured
import Hypertext.Proofs.Settings.Once
import Hypertext.Proofs.Text.Escaped
import Hypertext.Proofs.Text.Margins
import Hypertext.Proofs.Markup.CommentEnd
import Hypertext.Proofs.Layout.TextLines
import Hypertext.Proofs.Layout.Trace
import Hypertext.Proofs.Component.Direct
