import SporkNode.Bytes
import SporkNode.Chain.BlockIndex
import SporkNode.Curve.Field
import SporkNode.Curve.Point
import SporkNode.Digest.Hmac
import SporkNode.Digest.Sha256
import SporkNode.Document.Json
import SporkNode.Document.Records
import SporkNode.Document.Scan
import SporkNode.Document.Toml
import SporkNode.Document.Toml.Scalar
import SporkNode.Document.Toml.Tree
import SporkNode.Document.Value
import SporkNode.Hash
import SporkNode.Inventory
import SporkNode.Log
import SporkNode.Main
import SporkNode.Node.Config
import SporkNode.Node.Lifecycle
import SporkNode.Node.Outbound
import SporkNode.Proofs.Chain.Appended
import SporkNode.Proofs.Chain.BestTip
import SporkNode.Proofs.Chain.Trail
import SporkNode.Proofs.Curve.Field
import SporkNode.Proofs.Curve.Group
import SporkNode.Proofs.Curve.Primes
import SporkNode.Proofs.Node.Sync
import SporkNode.Proofs.Numerals
import SporkNode.Proofs.Results
import SporkNode.Proofs.Signature.Ecdsa
import SporkNode.Proofs.Signature.Preimage
import SporkNode.Proofs.Signature.Recovery
import SporkNode.Proofs.Signature.Scheme
import SporkNode.Proofs.Spork.Agreement
import SporkNode.Proofs.Spork.Announced
import SporkNode.Proofs.Spork.Delivery
import SporkNode.Proofs.Spork.Durability
import SporkNode.Proofs.Spork.Encoding
import SporkNode.Proofs.Spork.Freshness
import SporkNode.Proofs.Spork.Gate
import SporkNode.Proofs.Spork.Governor
import SporkNode.Proofs.Spork.InstalledKey
import SporkNode.Proofs.Spork.Listing
import SporkNode.Proofs.Spork.Loading
import SporkNode.Proofs.Spork.Manager
import SporkNode.Proofs.Spork.Message
import SporkNode.Proofs.Spork.Misplaced
import SporkNode.Proofs.Spork.Operation
import SporkNode.Proofs.Spork.Outcome
import SporkNode.Proofs.Spork.Outward
import SporkNode.Proofs.Spork.Records
import SporkNode.Proofs.Spork.Reprocessing
import SporkNode.Proofs.Spork.Restart
import SporkNode.Proofs.Spork.SignedText
import SporkNode.Proofs.Text.Decimal
import SporkNode.Proofs.Text.Utf8
import SporkNode.Proofs.Wallet.Base58
import SporkNode.Proofs.Wallet.ImportFormat
import SporkNode.Proofs.Wire.Cursor
import SporkNode.Proofs.Wire.FailedReads
import SporkNode.Proofs.Wire.RoundTrip
import SporkNode.Proofs.Wire.Script
import SporkNode.Proofs.Work.Adjustment
import SporkNode.Proofs.Work.Attainable
import SporkNode.Proofs.Work.Average
import SporkNode.Proofs.Work.AverageDrift
import SporkNode.Proofs.Work.Burst
import SporkNode.Proofs.Work.CompactTarget
import SporkNode.Proofs.Work.Coverage
import SporkNode.Proofs.Work.Decay
import SporkNode.Proofs.Work.Dependence
import SporkNode.Proofs.Work.Easing
import SporkNode.Proofs.Work.Elapsed
import SporkNode.Proofs.Work.Exact
import SporkNode.Proofs.Work.Handbrake
import SporkNode.Proofs.Work.Interval
import SporkNode.Proofs.Work.LateBlocks
import SporkNode.Proofs.Work.Limit
import SporkNode.Proofs.Work.Newcomer
import SporkNode.Proofs.Work.NormalForm
import SporkNode.Proofs.Work.ProofCheck
import SporkNode.Proofs.Work.PrunedInterval
import SporkNode.Proofs.Work.PrunedWave
import SporkNode.Proofs.Work.Retirement
import SporkNode.Proofs.Work.Signed
import SporkNode.Proofs.Work.Target
import SporkNode.Proofs.Work.Totality
import SporkNode.Proofs.Work.Waiting
import SporkNode.Proofs.Work.Walk
import SporkNode.Signature.Compact
import SporkNode.Signature.Ecdsa
import SporkNode.Signature.Key
import SporkNode.Signature.Message
import SporkNode.Signature.Nonce
import SporkNode.Signature.Scheme
import SporkNode.Spork.Authority
import SporkNode.Spork.Effect
import SporkNode.Spork.Error
import SporkNode.Spork.Governor
import SporkNode.Spork.Manager
import SporkNode.Spork.Message
import SporkNode.Spork.Registry
import SporkNode.Spork.Store
import SporkNode.Text.Calendar
import SporkNode.Text.Hex
import SporkNode.Text.Printable
import SporkNode.Text.Quoted
import SporkNode.Wallet.Base58
import SporkNode.Wallet.ImportFormat
import SporkNode.Wire.CompactSize
import SporkNode.Wire.Item
import SporkNode.Wire.Parse
import SporkNode.Work.Algorithm
import SporkNode.Work.Block
import SporkNode.Work.Checked
import SporkNode.Work.CompactTarget
import SporkNode.Work.Decay
import SporkNode.Work.Handbrake
import SporkNode.Work.Interval
import SporkNode.Work.Params
import SporkNode.Work.Required
import SporkNode.Work.Signed
import SporkNode.Work.Target
import SporkNode.Work.Wave
