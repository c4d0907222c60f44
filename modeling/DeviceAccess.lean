import DeviceAccess.Authority.Material
import DeviceAccess.Authority.Store
import DeviceAccess.Calendar
import DeviceAccess.Certificate.Basic
import DeviceAccess.Certificate.Inspection
import DeviceAccess.Certificate.Issue
import DeviceAccess.Certificate.Kind
import DeviceAccess.Certificate.Path
import DeviceAccess.Certificate.PrivateKey
import DeviceAccess.Certificate.Signature
import DeviceAccess.Certificate.Summary
import DeviceAccess.Certificate.Toolkit
import DeviceAccess.CommandLine
import DeviceAccess.CommandLine.Help
import DeviceAccess.Config.Check
import DeviceAccess.Config.Coding
import DeviceAccess.Config.EnvFile
import DeviceAccess.Config.EnvValue
import DeviceAccess.Config.Loading
import DeviceAccess.Config.Patch
import DeviceAccess.Config.Settings
import DeviceAccess.Crypto.Curve
import DeviceAccess.Crypto.Edwards
import DeviceAccess.Crypto.Entropy
import DeviceAccess.Crypto.Modular
import DeviceAccess.Crypto.Rsa
import DeviceAccess.Crypto.Sha2
import DeviceAccess.Deployment.Basic
import DeviceAccess.Deployment.Calls
import DeviceAccess.Disk.Basic
import DeviceAccess.Disk.Path
import DeviceAccess.Document
import DeviceAccess.Document.Yaml
import DeviceAccess.Encoding.Base64
import DeviceAccess.Encoding.Bytes
import DeviceAccess.Encoding.Der
import DeviceAccess.Encoding.Pem
import DeviceAccess.Fault
import DeviceAccess.Gateway.Access
import DeviceAccess.Gateway.Basic
import DeviceAccess.Identity.Registry
import DeviceAccess.Identity.Session
import DeviceAccess.Identity.Source
import DeviceAccess.Identity.Thing
import DeviceAccess.Leaf.Bundle
import DeviceAccess.Leaf.Key
import DeviceAccess.Leaf.Subscription
import DeviceAccess.Leaf.Subscriptions
import DeviceAccess.Main
import DeviceAccess.Net.IpAddress
import DeviceAccess.Net.Url
import DeviceAccess.Ordered
import DeviceAccess.Policy.Glob
import DeviceAccess.Policy.Groups
import DeviceAccess.Policy.Operation
import DeviceAccess.Policy.Permission
import DeviceAccess.Policy.Resource
import DeviceAccess.Policy.Rule
import DeviceAccess.Policy.Variable
import DeviceAccess.Program
import DeviceAccess.Program.Files
import DeviceAccess.Proofs.Along
import DeviceAccess.Proofs.Attempt
import DeviceAccess.Proofs.Authority.Files
import DeviceAccess.Proofs.Authority.Generated
import DeviceAccess.Proofs.Authority.Runs
import DeviceAccess.Proofs.Authority.Store
import DeviceAccess.Proofs.Certificate.Anchors
import DeviceAccess.Proofs.Certificate.Chains
import DeviceAccess.Proofs.Config.Coding
import DeviceAccess.Proofs.Config.Differences
import DeviceAccess.Proofs.Deployment.Configuring
import DeviceAccess.Proofs.Deployment.Installing
import DeviceAccess.Proofs.Deployment.Repeating
import DeviceAccess.Proofs.Deployment.Uploads
import DeviceAccess.Proofs.Deployment.Waiting
import DeviceAccess.Proofs.Disk.Path
import DeviceAccess.Proofs.Disk.Write
import DeviceAccess.Proofs.Document
import DeviceAccess.Proofs.Encoding.Pem
import DeviceAccess.Proofs.Gateway.Attaching
import DeviceAccess.Proofs.Gateway.CertificateRuns
import DeviceAccess.Proofs.Gateway.Certificates
import DeviceAccess.Proofs.Gateway.Checks
import DeviceAccess.Proofs.Gateway.Components
import DeviceAccess.Proofs.Gateway.Failures
import DeviceAccess.Proofs.Gateway.Grounds
import DeviceAccess.Proofs.Gateway.PublicFile
import DeviceAccess.Proofs.Gateway.Renewals
import DeviceAccess.Proofs.Gateway.Run
import DeviceAccess.Proofs.Gateway.Sections
import DeviceAccess.Proofs.Gateway.Settling
import DeviceAccess.Proofs.Gateway.Supply
import DeviceAccess.Proofs.Gateway.Sweeps
import DeviceAccess.Proofs.Gateway.Tracking
import DeviceAccess.Proofs.Interleaving.Addresses
import DeviceAccess.Proofs.Interleaving.Alone
import DeviceAccess.Proofs.Interleaving.Calls
import DeviceAccess.Proofs.Interleaving.Order
import DeviceAccess.Proofs.Interleaving.Owed
import DeviceAccess.Proofs.Interleaving.Rotation
import DeviceAccess.Proofs.Leaf.Expiry
import DeviceAccess.Proofs.Leaf.Issuing
import DeviceAccess.Proofs.Leaf.Registry
import DeviceAccess.Proofs.Ordered
import DeviceAccess.Proofs.Policy.Denotation
import DeviceAccess.Proofs.Policy.Grammar
import DeviceAccess.Proofs.Policy.Grants
import DeviceAccess.Proofs.Policy.Insertion
import DeviceAccess.Proofs.Policy.Isolation
import DeviceAccess.Proofs.Policy.Literal
import DeviceAccess.Proofs.Policy.Matchers
import DeviceAccess.Proofs.Policy.Replacement
import DeviceAccess.Proofs.Policy.Resolution
import DeviceAccess.Proofs.Policy.Rows
import DeviceAccess.Proofs.Policy.Services
import DeviceAccess.Proofs.Policy.Spelling
import DeviceAccess.Proofs.Policy.Table
import DeviceAccess.Proofs.Policy.TopicFilter
import DeviceAccess.Proofs.Policy.Variable
import DeviceAccess.Proofs.Policy.Writing
import DeviceAccess.Proofs.Reachability
import DeviceAccess.Proofs.Retry
import DeviceAccess.Proofs.Service.Changes
import DeviceAccess.Proofs.Service.InForce
import DeviceAccess.Proofs.Service.Outputs
import DeviceAccess.Proofs.Service.Runs
import DeviceAccess.Proofs.Service.Selective
import DeviceAccess.Proofs.Sessions.Ages
import DeviceAccess.Proofs.Sessions.Denials
import DeviceAccess.Proofs.Sessions.DeviceFiles
import DeviceAccess.Proofs.Sessions.Idle
import DeviceAccess.Proofs.Sessions.Lookup
import DeviceAccess.Proofs.Sessions.Recency
import DeviceAccess.Proofs.Sessions.Refresh
import DeviceAccess.Reachability
import DeviceAccess.Retry
import DeviceAccess.Service.Basic
import DeviceAccess.Service.Reload
import DeviceAccess.Sessions.Cache
import DeviceAccess.Sessions.DeviceFiles
import DeviceAccess.Sessions.Identifier
import DeviceAccess.Sessions.Manager
import DeviceAccess.Text.Blank
import DeviceAccess.Text.Letter
import DeviceAccess.Text.Numeral
