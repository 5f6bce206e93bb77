import SvmWasiCore.SigningRun
import SvmWasiCore.LowOrder
import SvmWasiCore.MintExtensions
import SvmWasiCore.WireLimits
import SvmWasiCore.RpcNumbers
import SvmWasiCore.WireImage
import SvmWasiCore.AccountKinds
import SvmWasiCore.Allowance
import SvmWasiCore.ShapingKept
import SvmWasiCore.ShapingBounds
import SvmWasiCore.ShapingLedger
import SvmWasiCore.RpcBatches
import SvmWasiCore.Nonce
import SvmWasiCore.SubscriptionLayout
import SvmWasiCore.SubscriptionCalls
import SvmWasiCore.ScalarHex
import SvmWasiCore.SolText
import SvmWasiCore.Lib.Interaction
import SvmWasiCore.Lib.Base58
import SvmWasiCore.RpcSessions
import SvmWasiCore.SharedClient
import SvmWasiCore.SweepDelivery
import SvmWasiCore.NonceSetupRuns
import SvmWasiCore.Proposals
import SvmWasiCore.DerivedAddresses
import SvmWasiCore.RpcNodes
import SvmWasiCore.WrittenMints
