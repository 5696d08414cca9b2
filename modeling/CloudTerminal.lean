import CloudTerminal.Main
import CloudTerminal.Proofs.CloneTiming
import CloudTerminal.Proofs.Identifiers
import CloudTerminal.Proofs.Change
import CloudTerminal.Proofs.Logging
import CloudTerminal.Proofs.Noninterference
import CloudTerminal.Proofs.Independence
import CloudTerminal.Proofs.EntryHistory
import CloudTerminal.Proofs.Lifecycle
import CloudTerminal.Proofs.Framing
import CloudTerminal.Proofs.Transcript
import CloudTerminal.Proofs.ArrivalMap
import CloudTerminal.Proofs.ExactEffect
import CloudTerminal.Proofs.LogHistory
import CloudTerminal.Proofs.TableReading
import CloudTerminal.Proofs.Listings
import CloudTerminal.Proofs.Accounts
import CloudTerminal.Proofs.CloneRequest
import CloudTerminal.Proofs.Interruption
import CloudTerminal.Proofs.Environment
import CloudTerminal.Proofs.JobOrigin
import CloudTerminal.Proofs.HomeListing
import CloudTerminal.Proofs.HomePaths
import CloudTerminal.Proofs.DelayedClone
import CloudTerminal.Proofs.ExitWords
import CloudTerminal.Proofs.AgentHistory
import CloudTerminal.Proofs.TickReport
import CloudTerminal.Proofs.HomePrefix
import CloudTerminal.Proofs.DefaultNames
import CloudTerminal.Proofs.PageUrls
import CloudTerminal.Proofs.TableLayout
import CloudTerminal.Proofs.AddressBlocks
import CloudTerminal.Proofs.HostNames
import CloudTerminal.Proofs.FileNames
import CloudTerminal.Proofs.NetworkAnswers
import CloudTerminal.Proofs.CloneUrls
import CloudTerminal.Proofs.CloneableUrls
import CloudTerminal.Proofs.LineSpacing
import CloudTerminal.Proofs.Base64
import CloudTerminal.Proofs.KeyMaterial
import CloudTerminal.Proofs.Registrations
import CloudTerminal.Proofs.EchoLines
import CloudTerminal.Proofs.SettingsText
import CloudTerminal.Proofs.FaultlessRuns
