import CloudVM.Framework.Process
import CloudVM.Framework.Logic
import CloudVM.Framework.Run
import CloudVM.Framework.Requests
import CloudVM.Framework.Records
import CloudVM.Framework.Tenants
import CloudVM.Framework.Phases
import CloudVM.Framework.Sockets
import CloudVM.Framework.Callbacks
import CloudVM.Framework.Table
import CloudVM.Framework.Text
import CloudVM.Framework.Pieces
import CloudVM.Framework.Json
import CloudVM.Framework.JsonText
import CloudVM.Framework.Lines
import CloudVM.Framework.Pattern
import CloudVM.Framework.Utf8
import CloudVM.Framework.Csv
import CloudVM.Framework.Escapes
import CloudVM.Framework.Bits
import CloudVM.Framework.Attributes
import CloudVM.Framework.Language
import CloudVM.Framework.Cache
import CloudVM.Framework.Lockout
import CloudVM.Framework.Windows
import CloudVM.Framework.FollowUp
import CloudVM.Framework.Overlap
import CloudVM.Framework.Numbers
import CloudVM.Framework.Base64
import CloudVM.Framework.Doubles
import CloudVM.Framework.Promises
import CloudVM.Vm.Model
import CloudVM.Vm.Interface
import CloudVM.Vm.Service
import CloudVM.Vm.Quota
import CloudVM.Vm.Handover
import CloudVM.Vm.Visible
import CloudVM.Vm.Names
import CloudVM.Worker.Message
import CloudVM.Worker.Template
import CloudVM.Worker.Handler
import CloudVM.Worker.Aside
import CloudVM.Worker.Isolation
import CloudVM.Worker.Polling
import CloudVM.Worker.Unheard
import CloudVM.Plane.World
import CloudVM.Plane.Requests
import CloudVM.Plane.Publish
import CloudVM.Plane.Sound
import CloudVM.Plane.Deleted
import CloudVM.Plane.Phase
import CloudVM.Plane.Once
import CloudVM.Plane.Calls
import CloudVM.Plane.Addressed
import CloudVM.Plane.Shown
import CloudVM.Plane.Removal
import CloudVM.Plane.Repeat
import CloudVM.Plane.Vault
import CloudVM.Plane.Wire
import CloudVM.Auth.Model
import CloudVM.Auth.Service
import CloudVM.Auth.Store
import CloudVM.Auth.Server
import CloudVM.Auth.Neutral
import CloudVM.Auth.Edit
import CloudVM.Auth.Lifetime
import CloudVM.Auth.Rotation
import CloudVM.Auth.Revoked
import CloudVM.Auth.Evidence
import CloudVM.Auth.SecondFactor
import CloudVM.Auth.Deactivated
import CloudVM.Auth.Challenge
import CloudVM.Auth.Guesses
import CloudVM.Auth.Recovery
import CloudVM.Auth.Redeem
import CloudVM.Auth.SingleUse
import CloudVM.Auth.Generations
import CloudVM.Auth.Mailbox
import CloudVM.Auth.Base32
import CloudVM.Auth.Totp
import CloudVM.Auth.DevOtp
import CloudVM.Auth.Lockout
import CloudVM.Billing.Plan
import CloudVM.Billing.User
import CloudVM.Billing.Store
import CloudVM.Billing.Resolve
import CloudVM.Billing.Payment
import CloudVM.Billing.Server
import CloudVM.Billing.Webhook
import CloudVM.Billing.Activation
import CloudVM.Billing.RoleChange
import CloudVM.Billing.Replay
import CloudVM.Billing.Confluence
import CloudVM.Billing.Sale
import CloudVM.Billing.Funded
import CloudVM.Billing.Credit
import CloudVM.Billing.Sessions
import CloudVM.Billing.Reconcile
import CloudVM.Metering.Hours
import CloudVM.Metering.Meter
import CloudVM.Metering.Stall
import CloudVM.Metering.Running
import CloudVM.Metering.Usage
import CloudVM.Metering.Estimate
import CloudVM.Split.News
import CloudVM.Split.Machines
import CloudVM.Split.Members
import CloudVM.Split.Rulings
import CloudVM.Split.Catalogs
import CloudVM.Split.Sold
import CloudVM.Split.Granted
import CloudVM.Billing.Page
import CloudVM.Terminal.Commands
import CloudVM.Terminal.Gateway
import CloudVM.Terminal.Blocked
import CloudVM.Terminal.Bound
import CloudVM.Sessions.Connect
import CloudVM.Sessions.Attempts
import CloudVM.Sessions.Outlived
import CloudVM.Sessions.Authorised
import CloudVM.Access.Fingerprint
import CloudVM.Access.Entrances
import CloudVM.Access.Alike
import CloudVM.Access.Cookies
import CloudVM.Auth.Enrolment
import CloudVM.Assistant.Model
import CloudVM.Assistant.Actions
import CloudVM.Assistant.Internal
import CloudVM.Assistant.Prompt
import CloudVM.Assistant.Named
import CloudVM.Assistant.Scope
import CloudVM.Assistant.Completion
import CloudVM.Assistant.Conversations
import CloudVM.Assistant.Isolation
import CloudVM.Assistant.Exchange
import CloudVM.Assistant.Stream
import CloudVM.Assistant.Delivery
import CloudVM.Limits.Rules
import CloudVM.Limits.Gateway
import CloudVM.Limits.Counters
import CloudVM.Limits.Bound
import CloudVM.Students.Service
import CloudVM.Students.Store
import CloudVM.Students.Verified
import CloudVM.Students.Domains
import CloudVM.Guest.Keys
import CloudVM.Guest.Attributes
import CloudVM.Guest.RsaKey
import CloudVM.Guest.Registry
import CloudVM.Browser.Api
import CloudVM.Browser.Refresh
