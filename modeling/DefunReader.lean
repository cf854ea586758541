import DefunReader.FileTree
import DefunReader.Main
import DefunReader.Proofs.CorrectPrefix
import DefunReader.Proofs.Decomposition
import DefunReader.Proofs.DepthLimit
import DefunReader.Proofs.LexicalFailure
import DefunReader.Proofs.Provenance
import DefunReader.Proofs.RoundTrip
import DefunReader.Proofs.WellFormed
import DefunReader.Proofs.Scan
import DefunReader.Proofs.Place
import DefunReader.Proofs.Interleaving
import DefunReader.Proofs.Location
import DefunReader.Proofs.SourceLine
import DefunReader.Proofs.Underline
import DefunReader.Proofs.Faithful
import DefunReader.Proofs.Consistency
import DefunReader.Proofs.Composition
import DefunReader.Proofs.Trail
import DefunReader.Proofs.Lookups
import DefunReader.Proofs.Slices
import DefunReader.Proofs.Faultless
import DefunReader.Proofs.DepthBound
import DefunReader.Proofs.Upkeep
import DefunReader.Proofs.Journaling
import DefunReader.Proofs.Resumption
import DefunReader.Proofs.Hints
import DefunReader.Proofs.Numerals
import DefunReader.Proofs.Stray
import DefunReader.Proofs.Outline
import DefunReader.Proofs.Listing
import DefunReader.Proofs.Origins
import DefunReader.Proofs.CommandLine
import DefunReader.Proofs.Margin
import DefunReader.Proofs.Fuel
import DefunReader.Proofs.Framing
