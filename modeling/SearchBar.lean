import SearchBar.Bar
import SearchBar.FileTree.Making
import SearchBar.Part.Position
import SearchBar.Proofs.Part.Longest
import SearchBar.Proofs.Part.Offers
import SearchBar.Proofs.Reading
import SearchBar.Proofs.Scanning
import SearchBar.Proofs.Folding
import SearchBar.Proofs.Suggesting
import SearchBar.Proofs.Finishing
import SearchBar.Proofs.Drafting
import SearchBar.Proofs.Applying
import SearchBar.Proofs.Words
import SearchBar.Proofs.Allocating
import SearchBar.Proofs.Stability
import SearchBar.Proofs.Assigning
import SearchBar.Proofs.Matching
import SearchBar.Proofs.Layering
import SearchBar.Proofs.Extending
import SearchBar.Proofs.Agreement
import SearchBar.Proofs.Session
import SearchBar.Text.Integer
import SearchBar.Text.Quoted
import SearchBar.Proofs.Picking
import SearchBar.Proofs.Plugin.Hosting
import SearchBar.Proofs.Plugin.Registering
import SearchBar.Proofs.Plugin.Discovering
import SearchBar.Proofs.Plugin.History
import SearchBar.Proofs.Settings.Reporting
import SearchBar.Proofs.Separation
import SearchBar.Proofs.States
import SearchBar.Proofs.Continuing
import SearchBar.Proofs.Plugin.Roll
import SearchBar.Proofs.Supplying
import SearchBar.Proofs.Gathering
import SearchBar.Proofs.Resubmitting
import SearchBar.Proofs.Adding
import SearchBar.Proofs.Numerals
import SearchBar.Proofs.Parsing
import SearchBar.Proofs.Recovering
import SearchBar.Proofs.Outlook
import SearchBar.Proofs.Fusing
import SearchBar.Proofs.Reordering
import SearchBar.Proofs.Keying
import SearchBar.Proofs.Overlaying
import SearchBar.Proofs.Settings.Merging
import SearchBar.Proofs.Settings.Locating
import SearchBar.Proofs.Indexing
import SearchBar.Proofs.Journal.Keeping
import SearchBar.Proofs.Part.Answering
