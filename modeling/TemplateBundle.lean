import TemplateBundle.Main
import TemplateBundle.Proofs.Bundle.Outputs
import TemplateBundle.Proofs.Bundle.Preview
import TemplateBundle.Proofs.Template.Direct
import TemplateBundle.Proofs.Document.Extraction
import TemplateBundle.Proofs.Project.RoundTrip
import TemplateBundle.Proofs.Bundle.Inputs
import TemplateBundle.Proofs.Bundle.Forecast
import TemplateBundle.Proofs.Bundle.Rebuild
import TemplateBundle.Proofs.Bundle.Faults
import TemplateBundle.Proofs.Namespace.Resolution
import TemplateBundle.Proofs.Project.Sources
import TemplateBundle.Proofs.Template.PlainText
import TemplateBundle.Proofs.Template.Embedding
import TemplateBundle.Proofs.Template.Delimiters
import TemplateBundle.Proofs.Namespace.Declaring
import TemplateBundle.Proofs.Command.FrontEnds
import TemplateBundle.Proofs.Project.Listing
import TemplateBundle.Proofs.Project.Exclusion
import TemplateBundle.Proofs.Project.Moving
import TemplateBundle.Proofs.Bundle.Headings
import TemplateBundle.Proofs.Bundle.Assembling
import TemplateBundle.Proofs.Options.Content
import TemplateBundle.Proofs.Document.Location
import TemplateBundle.Proofs.Document.References
import TemplateBundle.Proofs.Template.Variables
import TemplateBundle.Proofs.Bundle.Keys
import TemplateBundle.Proofs.Template.Prettifying
