import Keystrokes.CommandLine.Arguments
import Keystrokes.CommandLine.Report
import Keystrokes.CommandLine.Start
import Keystrokes.Inspect
import Keystrokes.Keyboard.Terminal
import Keystrokes.Keymap
import Keystrokes.Listening.Delivery
import Keystrokes.Main
import Keystrokes.Proofs.Shortcut.RoundTrip
import Keystrokes.Proofs.Matching.Path
import Keystrokes.Proofs.Matching.Sharing
import Keystrokes.Proofs.Matching.Trie
import Keystrokes.Proofs.Matching.Ascending
import Keystrokes.Proofs.Matching.Frontier
import Keystrokes.Proofs.Matching.Agreement
import Keystrokes.Proofs.Matching.Underway
import Keystrokes.Proofs.Matching.FrontierStack
import Keystrokes.Proofs.Matching.Typing
import Keystrokes.Proofs.Matching.Transparency
import Keystrokes.Proofs.Shortcut.Unmeetable
import Keystrokes.Proofs.Shortcut.Growing
import Keystrokes.Proofs.Matching.Completion
import Keystrokes.Proofs.Responding.Run
import Keystrokes.Proofs.Responding.Phase
import Keystrokes.Proofs.Responding.Agreement
import Keystrokes.Proofs.Responding.Law
import Keystrokes.Proofs.Responding.Thread
import Keystrokes.Proofs.Responding.InStep
import Keystrokes.Proofs.Responding.Polling
import Keystrokes.Proofs.Responding.NeverRuns
import Keystrokes.Proofs.Responding.Forgetting
import Keystrokes.Proofs.Matching.Company
import Keystrokes.Proofs.Responding.Unnoticed
import Keystrokes.Proofs.Listening.Reach
import Keystrokes.Proofs.Listening.Sound
import Keystrokes.Proofs.Listening.Teardown
import Keystrokes.Proofs.Listening.LeaveAlone
import Keystrokes.Proofs.Listening.Members
import Keystrokes.Proofs.Listening.Turnover
import Keystrokes.Proofs.Listening.Independence
import Keystrokes.Proofs.Listening.Journal
import Keystrokes.Proofs.Listening.Moments
import Keystrokes.Proofs.Listening.Order
import Keystrokes.Proofs.Listening.Removal
import Keystrokes.Proofs.Responding.Nesting
import Keystrokes.Proofs.Responding.Flat
import Keystrokes.Proofs.Responding.Deadlines
import Keystrokes.Proofs.Shortcut.Cutting
import Keystrokes.Proofs.Shortcut.Platforms
import Keystrokes.Proofs.Matching.Spellings
import Keystrokes.Proofs.Keyboard.Terminal
import Keystrokes.Proofs.CommandLine.Start
import Keystrokes.Proofs.Listening.Course
import Keystrokes.Proofs.Listening.Settled
import Keystrokes.Proofs.Listening.Deadlines
import Keystrokes.Proofs.Responding.BlankText
import Keystrokes.Proofs.Matching.Rearranged
import Keystrokes.Proofs.Responding.Rearranged
