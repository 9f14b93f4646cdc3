import SolanaProxy.General.Bytes
import SolanaProxy.General.Word
import SolanaProxy.General.Fallible
import SolanaProxy.General.Machine
import SolanaProxy.General.TokenBucket
import SolanaProxy.General.CappedFee
import SolanaProxy.General.Custody
import SolanaProxy.General.Mailbox
import SolanaProxy.General.Channel
import SolanaProxy.General.Decimals
import SolanaProxy.General.Merkle
import SolanaProxy.Solana.Account
import SolanaProxy.Solana.Token
import SolanaProxy.Solana.Endpoint
import SolanaProxy.Solana.PeerConfig
import SolanaProxy.Solana.RateLimit
import SolanaProxy.Crossing.Frame
import SolanaProxy.Proxy.Codec
import SolanaProxy.Proxy.State
import SolanaProxy.Proxy.MerkleProof
import SolanaProxy.Proxy.Request
import SolanaProxy.Proxy.Claim
import SolanaProxy.Proxy.Admin
import SolanaProxy.Proxy.Receive
import SolanaProxy.Proxy.Run
import SolanaProxy.Proxy.Changes
import SolanaProxy.Proxy.ClaimAuthenticity
import SolanaProxy.Proxy.HonestProof
import SolanaProxy.Proxy.Quote
import SolanaProxy.Proxy.ReceiveTypes
import SolanaProxy.Proxy.FeeCheck
import SolanaProxy.Proxy.RateLimit
import SolanaProxy.Proxy.Lamports
import SolanaProxy.Proxy.Authority
import SolanaProxy.Proxy.Delivery
import SolanaProxy.Ledger.Codec
import SolanaProxy.Ledger.OApp
import SolanaProxy.Crossing.Vault
import SolanaProxy.Ledger.Quote
import SolanaProxy.Ledger.Authority
import SolanaProxy.Crossing.Usdc
import SolanaProxy.Crossing.Bridge
import SolanaProxy.Crossing.Requests
import SolanaProxy.Crossing.Claims
import SolanaProxy.Crossing.Orders
import SolanaProxy.Crossing.Peers
import SolanaProxy.Solana.TokenInterface
import SolanaProxy.Oft.Codec
import SolanaProxy.Oft.Store
import SolanaProxy.Oft.Fee
import SolanaProxy.Oft.Admin
import SolanaProxy.Oft.Transfer
import SolanaProxy.Oft.Run
import SolanaProxy.Oft.Escrow
import SolanaProxy.Oft.Wire
import SolanaProxy.Oft.Quote
import SolanaProxy.Oft.Changes
import SolanaProxy.Oft.Limits
import SolanaProxy.Oft.Amounts
import SolanaProxy.Oft.QuoteSend
import SolanaProxy.Oft.Settings
import SolanaProxy.Oft.Books
import SolanaProxy.Oft.ReceiveTypes
import SolanaProxy.Oft.Mesh
import SolanaProxy.Oft.Transfers
import SolanaProxy.Oft.Backing
import SolanaProxy.Oft.Composes
import SolanaProxy.Oft.InFlight
import SolanaProxy.Oft.Peers
import SolanaProxy.Oft.Charges
import SolanaProxy.Oft.Fees
import SolanaProxy.Oft.Pause
