import Lexicon.Main
import Lexicon.Proofs.BlankJoin
import Lexicon.Proofs.BoundaryUnion
import Lexicon.Proofs.CandidateListing
import Lexicon.Proofs.CandidateOrder
import Lexicon.Proofs.CharacterBoundaries
import Lexicon.Proofs.Classification
import Lexicon.Proofs.Coverage
import Lexicon.Proofs.DecisiveMatch
import Lexicon.Proofs.FusedStream
import Lexicon.Proofs.LoadFaults
import Lexicon.Proofs.LongestMatch
import Lexicon.Proofs.Lookahead
import Lexicon.Proofs.LosslessLexing
import Lexicon.Proofs.MatchingEntries
import Lexicon.Proofs.NumeralSpelling
import Lexicon.Proofs.NumericTokens
import Lexicon.Proofs.OffsetShift
import Lexicon.Proofs.OpcodeNames
import Lexicon.Proofs.OverlapListing
import Lexicon.Proofs.RecoveryLoop
import Lexicon.Proofs.Restart
import Lexicon.Proofs.RoundTrip
import Lexicon.Proofs.SetupFaults
import Lexicon.Proofs.Shadowing
import Lexicon.Proofs.SkippedRuns
import Lexicon.Proofs.SourceTiling
import Lexicon.Proofs.StreamAgreement
import Lexicon.Proofs.TableLines
import Lexicon.Proofs.TableLiterals
import Lexicon.Proofs.TableText
import Lexicon.Proofs.TrieLookup
import Lexicon.Proofs.WordRuns
import Lexicon.Stream
import Lexicon.Workspace
import Lexicon.Proofs.LinePositions
import Lexicon.Proofs.NumeralGrammar
import Lexicon.Proofs.Diagnostics
import Lexicon.Proofs.OpcodeLookup
import Lexicon.Proofs.ByteMembership
import Lexicon.Proofs.TrieShape
import Lexicon.Proofs.UnambiguousListing
