import PromptRunner.Main
import PromptRunner.Proofs.Occurrence
import PromptRunner.Proofs.Preparation
import PromptRunner.Proofs.Template.Tokens
import PromptRunner.Proofs.Template.Filling
import PromptRunner.Proofs.Template.Segments
import PromptRunner.Proofs.Prompt.Leaves
import PromptRunner.Proofs.Prompt.Flattening
import PromptRunner.Proofs.Prompt.Parsing
import PromptRunner.Proofs.MissingVariables
import PromptRunner.Proofs.Prompt.Rendering
import PromptRunner.Proofs.Prompt.FilledText
import PromptRunner.Proofs.Running
import PromptRunner.Proofs.Variables.Merging
import PromptRunner.Proofs.Prompt.Library
import PromptRunner.Proofs.FileContents
import PromptRunner.Proofs.Prompt.Listing
import PromptRunner.Proofs.Prompt.Frontmatter
import PromptRunner.Proofs.Grants
import PromptRunner.Proofs.Dependence
import PromptRunner.Proofs.Prompt.TextDocument
import PromptRunner.Proofs.ConfigPlace
import PromptRunner.Proofs.Prompt.Delimiters
import PromptRunner.Proofs.Path.Normalizing
import PromptRunner.Proofs.Prompt.Searching
import PromptRunner.Proofs.ReadingBack
import PromptRunner.Proofs.Shell.CommandWords
import PromptRunner.Proofs.Prompt.Holdings
import PromptRunner.Proofs.Prompt.ListingLines
import PromptRunner.Proofs.Prompt.ScalarSpelling
import PromptRunner.Proofs.Prompt.Nesting
import PromptRunner.Proofs.Prompt.DescriptionColumn
