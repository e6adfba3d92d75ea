import SignedConsole.Api.Client
import SignedConsole.Console.Loop
import SignedConsole.Credential.Signing
import SignedConsole.Credential.Vault
import SignedConsole.Http.Message
import SignedConsole.Main
import SignedConsole.Program.Run
import SignedConsole.Proofs.AccountOutcomes
import SignedConsole.Proofs.ClientRuns
import SignedConsole.Proofs.HiddenSecret
import SignedConsole.Proofs.LoneFiles
import SignedConsole.Proofs.RequestCredentials
import SignedConsole.Proofs.ResourceUrls
import SignedConsole.Proofs.Rounds
import SignedConsole.Proofs.SessionMirror
import SignedConsole.Proofs.SharedStorage
import SignedConsole.Proofs.SignatureBinding
import SignedConsole.Proofs.StateFiles
import SignedConsole.Proofs.VaultRuns
import SignedConsole.Settings.Location
import SignedConsole.Storage.Host
import SignedConsole.Proofs.InterruptedWrites
import SignedConsole.Proofs.ConcurrentWriters
import SignedConsole.Proofs.JsonLines
import SignedConsole.Proofs.SettingsRoundTrip
import SignedConsole.Proofs.Base64RoundTrip
import SignedConsole.Proofs.PemLayout
import SignedConsole.Proofs.SecretReuse
import SignedConsole.Proofs.BatchUpdates
import SignedConsole.Proofs.CommandGrammar
import SignedConsole.Proofs.FirstCalls
import SignedConsole.Proofs.DerElements
import SignedConsole.Proofs.KeyForms
import SignedConsole.Proofs.VerifiedSignatures
import SignedConsole.Proofs.SecretLookups
import SignedConsole.Proofs.RemovableKeys
import SignedConsole.Proofs.RecordTexts
import SignedConsole.Proofs.EmptyLists
import SignedConsole.Proofs.HiddenAnswers
import SignedConsole.Proofs.SecretEquality
import SignedConsole.Proofs.ShownSizes
import SignedConsole.Proofs.LenientReplies
import SignedConsole.Proofs.ProgramRuns
