import SlabLedger.Bytes
import SlabLedger.Text.Ranges
import SlabLedger.Text.GraphemeExtend
import SlabLedger.Text.Printable
import SlabLedger.Text.Quote
import SlabLedger.Text.Hex
import SlabLedger.Text.Crockford
import SlabLedger.Text.Base58
import SlabLedger.Text.Escapes
import SlabLedger.Address
import SlabLedger.Key
import SlabLedger.Market.Side
import SlabLedger.Fault
import SlabLedger.Config
import SlabLedger.Slab.Decoder
import SlabLedger.Slab.Header
import SlabLedger.Slab.Pages
import SlabLedger.Slab.Collection
import SlabLedger.Slab.Node
import SlabLedger.Slab.Tree
import SlabLedger.Slab.Tree.Walk
import SlabLedger.Slab.Vector
import SlabLedger.Market.Book
import SlabLedger.Market.Settlement
import SlabLedger.Market.Chain
import SlabLedger.Market.Account
import SlabLedger.Config.Toml
import SlabLedger.Report
import SlabLedger.Text.Base64
import SlabLedger.Cli.Args
import SlabLedger.Text.Utf8
import SlabLedger.Cli.Program
import SlabLedger.Cli.Output
import SlabLedger.Cli.Files
import SlabLedger.Cli.Run
import SlabLedger.Cli.BareMachine
import SlabLedger.Main
import SlabLedger.Proofs.Chain.Steps
import SlabLedger.Proofs.Chain.Stream
import SlabLedger.Proofs.Chain.Safety
import SlabLedger.Proofs.Decoder
import SlabLedger.Proofs.Slab.Faults
import SlabLedger.Proofs.Market.Prefix
import SlabLedger.Proofs.Slab.Placement
import SlabLedger.Proofs.Text.Bits
import SlabLedger.Proofs.Text.Shifts
import SlabLedger.Proofs.Text.Crockford
import SlabLedger.Proofs.Text.Carry
import SlabLedger.Proofs.Text.Base58
import SlabLedger.Proofs.Slab.Walk
import SlabLedger.Proofs.Market.Assemble
import SlabLedger.Proofs.Market.Sorted
import SlabLedger.Proofs.Text.OrderId
import SlabLedger.Proofs.Slab.PageEnds
import SlabLedger.Proofs.Slab.FreeList
import SlabLedger.Proofs.Slab.UsedPages
import SlabLedger.Proofs.Cursor
import SlabLedger.Proofs.Market.Account
import SlabLedger.Proofs.InRange
