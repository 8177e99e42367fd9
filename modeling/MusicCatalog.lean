import MusicCatalog.CommandLine
import MusicCatalog.Main
import MusicCatalog.Proofs.Json.Outcome
import MusicCatalog.Proofs.Json.Token
import MusicCatalog.Proofs.Json.Grammar
import MusicCatalog.Proofs.Json.Strings
import MusicCatalog.Proofs.Json.Nesting
import MusicCatalog.Proofs.Entry
import MusicCatalog.Proofs.RoundTrip
import MusicCatalog.Proofs.Random.Sampling
import MusicCatalog.Proofs.Files
import MusicCatalog.Proofs.Offer
import MusicCatalog.Proofs.SharedPages
import MusicCatalog.Proofs.Curator
import MusicCatalog.Proofs.Json.Given
import MusicCatalog.Proofs.Reread
import MusicCatalog.Proofs.Ascii
import MusicCatalog.Session
import MusicCatalog.Proofs.Session
import MusicCatalog.Proofs.Json.Numerals
import MusicCatalog.Proofs.Json.Taken
import MusicCatalog.Proofs.Json.Unambiguous
import MusicCatalog.Proofs.EntryParts
import MusicCatalog.Proofs.Keys
import MusicCatalog.Proofs.Edits
import MusicCatalog.Proofs.Relisted
import MusicCatalog.Proofs.ByPosition
import MusicCatalog.Proofs.ByEquality
import MusicCatalog.Proofs.Chance
import MusicCatalog.Proofs.Mood
import MusicCatalog.Proofs.Lowered
import MusicCatalog.Proofs.Json.Once
import MusicCatalog.Proofs.Typed
import MusicCatalog.Proofs.Json.Skipped
import MusicCatalog.Proofs.Snapshot
import MusicCatalog.Proofs.Reordered
import MusicCatalog.Proofs.Encodings
import MusicCatalog.Proofs.Settled
import MusicCatalog.Proofs.Arguments
import MusicCatalog.Proofs.Site
import MusicCatalog.Proofs.CommandLine
import MusicCatalog.Proofs.Fetch
import MusicCatalog.Proofs.Counts
import MusicCatalog.Proofs.Bases
import MusicCatalog.Proofs.Written
