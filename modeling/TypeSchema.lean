import TypeSchema.Main
import TypeSchema.Proofs.Bundle
import TypeSchema.Proofs.Policies
import TypeSchema.Resolve.Machine
import TypeSchema.Proofs.Machine
import TypeSchema.Proofs.Requests
import TypeSchema.Proofs.Translation
import TypeSchema.Proofs.Entries
import TypeSchema.Proofs.Orders
import TypeSchema.Proofs.Strict
import TypeSchema.Proofs.Fresh
import TypeSchema.Proofs.Account
import TypeSchema.Proofs.Hidden
import TypeSchema.Proofs.Accepted
import TypeSchema.Proofs.Documents
import TypeSchema.Proofs.Inspect
import TypeSchema.Proofs.Validation
import TypeSchema.Proofs.Saved
import TypeSchema.Proofs.Files
import TypeSchema.Proofs.Halts
import TypeSchema.Proofs.Loading
import TypeSchema.Proofs.Renaming
import TypeSchema.Proofs.Depth
import TypeSchema.Proofs.Trails
import TypeSchema.Proofs.Unions
import TypeSchema.Proofs.Merging
import TypeSchema.Proofs.WellFormed
import TypeSchema.Proofs.FlagWords
