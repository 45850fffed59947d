import DeskhopPlus.Library.Bytes
import DeskhopPlus.Library.Runs
import DeskhopPlus.Library.Sealing
import DeskhopPlus.Library.Tumbling
import DeskhopPlus.Library.Unwinding
import DeskhopPlus.Library.Clock
import DeskhopPlus.Library.Blocks
import DeskhopPlus.Library.Ring
import DeskhopPlus.Library.Scanning
import DeskhopPlus.Library.LaneQueue
import DeskhopPlus.Library.ReplayWindow
import DeskhopPlus.Library.Tokens
import DeskhopPlus.Library.Layout
import DeskhopPlus.Library.Utf8
import DeskhopPlus.Library.Rounding
import DeskhopPlus.Library.Ascent
import DeskhopPlus.Library.StableSort
import DeskhopPlus.Library.Slots
import DeskhopPlus.Library.Remainder
import DeskhopPlus.Library.Slices
import DeskhopPlus.Library.Noting
import DeskhopPlus.Library.Sha2
import DeskhopPlus.Library.KeyedHash
import DeskhopPlus.Crypto.Sha256
import DeskhopPlus.Wire.Frame
import DeskhopPlus.Wire.Reader
import DeskhopPlus.Wire.Slicing
import DeskhopPlus.Wire.Bundle
import DeskhopPlus.Wire.FileName
import DeskhopPlus.Wire.Carrier
import DeskhopPlus.Auth.Tag
import DeskhopPlus.Auth.Window
import DeskhopPlus.Outq.Queue
import DeskhopPlus.Outq.Stream
import DeskhopPlus.Outq.Accounting
import DeskhopPlus.Outq.Reordering
import DeskhopPlus.Outq.Pump
import DeskhopPlus.Link.Packet
import DeskhopPlus.Link.Confinement
import DeskhopPlus.Link.Receiver
import DeskhopPlus.Link.Corruption
import DeskhopPlus.Crypto.P256
import DeskhopPlus.Wire.Clip
import DeskhopPlus.Wire.Bodies
import DeskhopPlus.Seal.Exchange
import DeskhopPlus.Seal.Payload
import DeskhopPlus.Seal.Agreement
import DeskhopPlus.Seal.Staging
import DeskhopPlus.Seal.Nonces
import DeskhopPlus.Transfer.Machine
import DeskhopPlus.Transfer.Pair
import DeskhopPlus.Transfer.Steady
import DeskhopPlus.Transfer.Ledger
import DeskhopPlus.Transfer.Fidelity
import DeskhopPlus.Transfer.Reuse
import DeskhopPlus.Transfer.Turns
import DeskhopPlus.Transfer.Once
import DeskhopPlus.Transfer.Assembly
import DeskhopPlus.Transfer.Emission
import DeskhopPlus.Transfer.Directions
import DeskhopPlus.Transfer.Lines
import DeskhopPlus.Transfer.Flow
import DeskhopPlus.Transfer.Window
import DeskhopPlus.Transfer.Checksum
import DeskhopPlus.Transfer.FileList
import DeskhopPlus.Transfer.FileGrammar
import DeskhopPlus.Transfer.FileSpelling
import DeskhopPlus.Outq.Growth
import DeskhopPlus.Outq.Leading
import DeskhopPlus.Outq.Adjacent
import DeskhopPlus.Board.Pair
import DeskhopPlus.Board.Session
import DeskhopPlus.Board.Relay
import DeskhopPlus.Board.Handoff
import DeskhopPlus.Board.Fragments
import DeskhopPlus.Board.RelayLine
import DeskhopPlus.Board.Lifecycle
import DeskhopPlus.Board.Moves
import DeskhopPlus.Board.Postings
import DeskhopPlus.Board.Watch
import DeskhopPlus.Board.Isolation
import DeskhopPlus.Board.Replay
import DeskhopPlus.Board.Liveness
import DeskhopPlus.Board.Debts
import DeskhopPlus.Board.Counters
import DeskhopPlus.Board.Waiting
import DeskhopPlus.Helper.Counters
import DeskhopPlus.Helper.Standing
import DeskhopPlus.Helper.Pinning
import DeskhopPlus.Helper.Telling
import DeskhopPlus.Helper.Capacity
import DeskhopPlus.Helper.Deferral
import DeskhopPlus.Helper.Rate
import DeskhopPlus.Helper.Reconnects
import DeskhopPlus.Library.Recent
import DeskhopPlus.Board.Hygiene
import DeskhopPlus.Board.Placements
import DeskhopPlus.Board.Beat
import DeskhopPlus.Board.Listener
import DeskhopPlus.Board.Pairing
import DeskhopPlus.Helper.Machine
import DeskhopPlus.Helper.Moves
import DeskhopPlus.Helper.Answers
import DeskhopPlus.Helper.Codecs
import DeskhopPlus.Firmware.Pull
import DeskhopPlus.Firmware.Integrity
import DeskhopPlus.Firmware.Delays
import DeskhopPlus.Mouse.Layout
import DeskhopPlus.Mouse.SeamMap
import DeskhopPlus.Mouse.WindowsPointer
import DeskhopPlus.Mouse.Device
import DeskhopPlus.Mouse.Query
import DeskhopPlus.Mouse.Walk
import DeskhopPlus.Mouse.Crossing
import DeskhopPlus.Mouse.Overshoot
import DeskhopPlus.Mouse.PlaceTarget
import DeskhopPlus.Keyboard.Hotkey
import DeskhopPlus.Keyboard.Output
import DeskhopPlus.Config.KeyName
import DeskhopPlus.Config.Text
import DeskhopPlus.Config.Grammar
import DeskhopPlus.Config.Reading
import DeskhopPlus.Hid.Interface
import DeskhopPlus.Hid.Descriptor
import DeskhopPlus.Hid.DescriptorLaw
import DeskhopPlus.Hid.KeyboardReport
import DeskhopPlus.Hid.Keyboards
import DeskhopPlus.Hid.LayoutLaw
import DeskhopPlus.Hid.Fields
import DeskhopPlus.Hid.Accesses
import DeskhopPlus.Hid.Bounds
import DeskhopPlus.Sleep.Sync
import DeskhopPlus.Sleep.Idle
import DeskhopPlus.Crypto.Streaming
import DeskhopPlus.Crypto.Standard
import DeskhopPlus.Mouse.Screens
import DeskhopPlus.Mouse.Transactions
import DeskhopPlus.Library.Since
import DeskhopPlus.Keyboard.Chords
import DeskhopPlus.Library.Places
import DeskhopPlus.Firmware.ConfigLayout
import DeskhopPlus.Firmware.ConfigApi
import DeskhopPlus.Firmware.ReadAll
import DeskhopPlus.Firmware.Drop
