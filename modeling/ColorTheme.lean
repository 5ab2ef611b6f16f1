import ColorTheme.Decimal.Fixed
import ColorTheme.Editor.Session
import ColorTheme.Main
import ColorTheme.Proofs.Grammar
import ColorTheme.Proofs.Walk.Visibility
import ColorTheme.Proofs.Walk.Fixpoint
import ColorTheme.Proofs.Walk.Forward
import ColorTheme.Proofs.Account
import ColorTheme.Proofs.Account.Index
import ColorTheme.Proofs.Account.Listing
import ColorTheme.Proofs.Account.Spans
import ColorTheme.Proofs.Compare.Reordered
import ColorTheme.Proofs.Compare.Edited
import ColorTheme.Proofs.Compare.Layout
import ColorTheme.Proofs.Compare.Revalued
import ColorTheme.Proofs.Compare.Relined
import ColorTheme.Proofs.CommandLine.Predicted
import ColorTheme.Proofs.Editor.LineFeeds
import ColorTheme.Proofs.Editor.Dialogue
import ColorTheme.Proofs.Editor.Highlighting
import ColorTheme.Proofs.Editor.OpenBlocks
import ColorTheme.Proofs.Editor.Picking
import ColorTheme.Proofs.Theme.Complete
import ColorTheme.Proofs.Theme.Listed
import ColorTheme.Proofs.Theme.Rendering
import ColorTheme.Proofs.Theme.Strict
import ColorTheme.Proofs.Editor.Place
import ColorTheme.Proofs.Grammar.Document
import ColorTheme.Proofs.Token.Tiling
import ColorTheme.Proofs.Account.Shape
import ColorTheme.Proofs.Token.Joined
import ColorTheme.Proofs.Account.First
import ColorTheme.Proofs.Account.Flags
import ColorTheme.Proofs.Account.StyleListing
import ColorTheme.Proofs.Editor.CursorPath
import ColorTheme.Proofs.Editor.Definition
import ColorTheme.Proofs.Editor.Hovering
import ColorTheme.Proofs.Node.Flattening
import ColorTheme.Proofs.Editor.LastWrite
import ColorTheme.Proofs.Editor.PaletteOffers
import ColorTheme.Proofs.Editor.Unassigned
import ColorTheme.Proofs.Item.Strings
import ColorTheme.Proofs.Node.Insertion
