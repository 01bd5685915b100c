import OverlayScrollbar.Main
import OverlayScrollbar.Single.Bits
import OverlayScrollbar.Proofs.Run
import OverlayScrollbar.Proofs.History
import OverlayScrollbar.Proofs.Pairs
import OverlayScrollbar.Proofs.Files
import OverlayScrollbar.Proofs.Binary.Rounding
import OverlayScrollbar.Proofs.Binary.Double
import OverlayScrollbar.Proofs.Binary.WholeParts
import OverlayScrollbar.Proofs.Single.Finite
import OverlayScrollbar.Proofs.Single.Rank
import OverlayScrollbar.Proofs.Single.Whole
import OverlayScrollbar.Proofs.Single.Monotone
import OverlayScrollbar.Proofs.Single.Multiples
import OverlayScrollbar.Proofs.Single.Parts
import OverlayScrollbar.Proofs.Single.Lengths
import OverlayScrollbar.Proofs.Single.Value
import OverlayScrollbar.Proofs.Single.Limits
import OverlayScrollbar.Proofs.Single.Errors
import OverlayScrollbar.Proofs.Single.Halves
import OverlayScrollbar.Proofs.Single.Products
import OverlayScrollbar.Proofs.Single.Diagonal
import OverlayScrollbar.Proofs.Decimal.Cell
import OverlayScrollbar.Proofs.Decimal.Separation
import OverlayScrollbar.Proofs.Decimal.Digits
import OverlayScrollbar.Proofs.Decimal.Shortest
import OverlayScrollbar.Proofs.Decimal.ReadBack
import OverlayScrollbar.Proofs.Json.Strings
import OverlayScrollbar.Proofs.Json.Numeral
import OverlayScrollbar.Proofs.Json.ReadBack
import OverlayScrollbar.Proofs.Json.Values
import OverlayScrollbar.Proofs.Json.Standard
import OverlayScrollbar.Proofs.Toml.Strings
import OverlayScrollbar.Proofs.Toml.Numbers
import OverlayScrollbar.Proofs.Toml.Lines
import OverlayScrollbar.Proofs.Toml.Standard
import OverlayScrollbar.Proofs.Theme.File
import OverlayScrollbar.Proofs.Listeners
import OverlayScrollbar.Proofs.Timers
import OverlayScrollbar.Proofs.Timers.Answers
import OverlayScrollbar.Proofs.Sprite.Cache
import OverlayScrollbar.Proofs.Sprite.Bytes
import OverlayScrollbar.Proofs.Sprite.Images
import OverlayScrollbar.Proofs.Sprite.Thumbs
import OverlayScrollbar.Proofs.Sprite.Coverage
import OverlayScrollbar.Proofs.Sprite.Mirrored
import OverlayScrollbar.Proofs.Sprite.Middle
import OverlayScrollbar.Proofs.Placement
import OverlayScrollbar.Proofs.Placement.Order
import OverlayScrollbar.Proofs.Placement.Target
import OverlayScrollbar.Proofs.Placement.RoundTrip
import OverlayScrollbar.Proofs.Editor.Lines
import OverlayScrollbar.Proofs.Editor.Cursor
import OverlayScrollbar.Proofs.Editor.Tracker
import OverlayScrollbar.Proofs.Editor.Host
import OverlayScrollbar.Proofs.Editor.Scrolling
import OverlayScrollbar.Proofs.Editor.Fling
import OverlayScrollbar.Proofs.Editor.Following
import OverlayScrollbar.Proofs.Editor.Operations
import OverlayScrollbar.Proofs.Editor.Stepping
import OverlayScrollbar.Proofs.Editor.Mirror
import OverlayScrollbar.Proofs.Editor.Notifications
import OverlayScrollbar.Proofs.Editor.Offsets
import OverlayScrollbar.Proofs.Editor.Pixels
import OverlayScrollbar.Proofs.Editor.Layout
import OverlayScrollbar.Proofs.Settings.Valid
import OverlayScrollbar.Proofs.Settings.File
import OverlayScrollbar.Proofs.Settings.Usable
import OverlayScrollbar.Proofs.Scrollbar.Call
import OverlayScrollbar.Proofs.Scrollbar.Operations
import OverlayScrollbar.Proofs.Scrollbar.Change
import OverlayScrollbar.Proofs.Scrollbar.Fade
import OverlayScrollbar.Proofs.Scrollbar.Placing
import OverlayScrollbar.Proofs.Scrollbar.Setup
import OverlayScrollbar.Proofs.Scrollbar.Coherence
import OverlayScrollbar.Proofs.Scrollbar.Entering
import OverlayScrollbar.Proofs.Scrollbar.InPlace
import OverlayScrollbar.Proofs.Scrollbar.Sprites
import OverlayScrollbar.Proofs.Scrollbar.Track
import OverlayScrollbar.Proofs.Scrollbar.Vanishing
import OverlayScrollbar.Proofs.Scrollbar.Appearance
import OverlayScrollbar.Proofs.Scrollbar.Cancellation
import OverlayScrollbar.Proofs.Scrollbar.Countdown
import OverlayScrollbar.Proofs.Scrollbar.Drag
import OverlayScrollbar.Proofs.Scrollbar.Ends
import OverlayScrollbar.Proofs.Scrollbar.Event
import OverlayScrollbar.Proofs.Scrollbar.Faultless
import OverlayScrollbar.Proofs.Scrollbar.Hold
import OverlayScrollbar.Proofs.Scrollbar.Picture
import OverlayScrollbar.Proofs.Scrollbar.Requests
import OverlayScrollbar.Proofs.Scrollbar.Sound
import OverlayScrollbar.Proofs.Scrollbar.Alike
import OverlayScrollbar.Proofs.Scrollbar.Inert
import OverlayScrollbar.Proofs.Scrollbar.Painted
import OverlayScrollbar.Proofs.Scrollbar.Used
import OverlayScrollbar.Proofs.Scrollbar.Conduct
import OverlayScrollbar.Proofs.Overlay.Gestures
import OverlayScrollbar.Proofs.App.Stages
import OverlayScrollbar.Proofs.App.Run
import OverlayScrollbar.Proofs.App.Settled
import OverlayScrollbar.Proofs.App.Fade
import OverlayScrollbar.Proofs.App.Strip
import OverlayScrollbar.Proofs.App.Painted
import OverlayScrollbar.Proofs.App.Faultless
import OverlayScrollbar.Proofs.App.Place
