import Storyboard.CommandLine.Workspace
import Storyboard.Journal
import Storyboard.Main
import Storyboard.Proofs.Keywords
import Storyboard.Proofs.Offsets
import Storyboard.Proofs.Isolation
import Storyboard.Proofs.Scanning
import Storyboard.Proofs.Thinning
import Storyboard.Proofs.Search
import Storyboard.Proofs.Durations
import Storyboard.Proofs.Outcomes
import Storyboard.Proofs.Beats
import Storyboard.Proofs.DurationModes
import Storyboard.Proofs.Lines
import Storyboard.Proofs.Locations
import Storyboard.Proofs.Entities
import Storyboard.Proofs.Openings
import Storyboard.Proofs.Blanks
import Storyboard.Proofs.Splicing
import Storyboard.Proofs.Independence
import Storyboard.Proofs.Missing
import Storyboard.Proofs.Cuts
import Storyboard.Proofs.Coverage
import Storyboard.Proofs.CheckedCuts
import Storyboard.Proofs.Margins
import Storyboard.Proofs.LineEndings
import Storyboard.Proofs.Transcript
import Storyboard.Proofs.Arguments
import Storyboard.Proofs.Disk
import Storyboard.Proofs.Runs
import Storyboard.Proofs.JsonValues
import Storyboard.Proofs.OptionMembers
import Storyboard.Proofs.Magnitudes
import Storyboard.Proofs.NumberTexts
import Storyboard.Proofs.DescriptorTexts
import Storyboard.Proofs.Leftmost
import Storyboard.Proofs.Measures
import Storyboard.Proofs.Neighbours
import Storyboard.Proofs.Reach
import Storyboard.Proofs.OwnNumbers
import Storyboard.Proofs.Colors
import Storyboard.Proofs.OwnColors
import Storyboard.Proofs.Vocabulary
import Storyboard.Proofs.FalseAlarms
import Storyboard.Proofs.Addresses
import Storyboard.Proofs.Models
import Storyboard.Proofs.Occurrences
import Storyboard.Proofs.FirstColors
import Storyboard.Proofs.Seconds
import Storyboard.Proofs.LongestKeyword
import Storyboard.Proofs.Captions
import Storyboard.Proofs.LetterCase
