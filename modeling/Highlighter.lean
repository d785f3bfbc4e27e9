import Highlighter.Main
import Highlighter.Scanner.Session
import Highlighter.Proofs.Tiling
import Highlighter.Proofs.ReservedNames
import Highlighter.Proofs.WholeWords
import Highlighter.Proofs.UnmatchedOption
import Highlighter.Proofs.TrailingNewline
import Highlighter.Proofs.BlockBodies
import Highlighter.Proofs.Restart
import Highlighter.Proofs.LineEndings
import Highlighter.Proofs.Dialects
import Highlighter.Proofs.WordLists
import Highlighter.Proofs.ModeStack
import Highlighter.Proofs.Progress
import Highlighter.Proofs.KeywordContexts
import Highlighter.Proofs.AliasTable
import Highlighter.Proofs.Routes
import Highlighter.Proofs.RegistrationOrder
import Highlighter.Proofs.Locations
import Highlighter.Proofs.TextReport
import Highlighter.Proofs.Cli.TextAndFlags
import Highlighter.Proofs.Globs
import Highlighter.Proofs.Clashes
import Highlighter.Proofs.JsonReport
import Highlighter.Proofs.AliasCase
import Highlighter.Proofs.Cli.Failures
import Highlighter.Proofs.LabelLines
import Highlighter.Proofs.RunningAhead
import Highlighter.Proofs.LogReplay
import Highlighter.Proofs.BaseNames
import Highlighter.Proofs.Scanner.Searches
import Highlighter.Proofs.GlobTurns
